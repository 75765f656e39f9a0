import WalletApi.Model.Ledger

/-!
Text utilities, request fingerprints and the authentication services.

Passwords and PINs are checked by one scheme, `checkSecret`: a lock that has run
out is lifted, a lock in force ends the check, a wrong secret counts and may
lock, a right one clears the count.
-/

namespace WalletApi

open Concurrency

/-! ### Text -/

/-- White space and line terminators of ECMAScript. -/
def isWhiteSpace (c : Char) : Bool :=
  c ∈ ['\t', '\n', '\x0b', '\x0c', '\r', ' ', '\u00a0', '\u1680', '\u2000', '\u2001', '\u2002',
    '\u2003', '\u2004', '\u2005', '\u2006', '\u2007', '\u2008', '\u2009', '\u200a', '\u2028',
    '\u2029', '\u202f', '\u205f', '\u3000', '\ufeff']

def trim (s : String) : String :=
  String.ofList ((s.toList.dropWhile isWhiteSpace).reverse.dropWhile isWhiteSpace).reverse

/-- `text.slice(0, 8)`. -/
def sliceEight (s : String) : String := String.ofList (s.toList.take 8)

/-- The text with every dash removed. -/
def withoutDashes (s : String) : String := String.ofList (s.toList.filter (· ≠ '-'))

namespace Json

/-- The escape of one character in a JSON string. -/
def escape (c : Char) : List Char :=
  if c = '"' then ['\\', '"']
  else if c = '\\' then ['\\', '\\']
  else if c = '\x08' then ['\\', 'b']
  else if c = '\x0c' then ['\\', 'f']
  else if c = '\n' then ['\\', 'n']
  else if c = '\r' then ['\\', 'r']
  else if c = '\t' then ['\\', 't']
  else if c.toNat < 32 then
    ['\\', 'u', '0', '0', Nat.digitChar (c.toNat / 16), Nat.digitChar (c.toNat % 16)]
  else [c]

def quote (s : String) : String :=
  "\"" ++ String.ofList (s.toList.flatMap escape) ++ "\""

mutual

/-- `JSON.stringify`. -/
def stringify : Json → String
  | null => "null"
  | bool b => if b then "true" else "false"
  | num x => if x.isFinite then JsNumber.toText x else "null"
  | str s => quote s
  | arr elems => "[" ++ String.intercalate "," (stringifyElems elems) ++ "]"
  | obj fields => "\x7b" ++ String.intercalate "," (stringifyFields fields) ++ "\x7d"

def stringifyElems : List Json → List String
  | [] => []
  | value :: rest => value.stringify :: stringifyElems rest

def stringifyFields : List (String × Json) → List String
  | [] => []
  | (name, value) :: rest => (quote name ++ ":" ++ value.stringify) :: stringifyFields rest

end

end Json

/-- `hashRequestBody`: the digest of the body as JSON. -/
def hashRequestBody (P : Platform) (body : Json) : String := P.sha256 body.stringify

/-! ### The `Idempotency-Key` header -/

def isHexDigit (c : Char) : Bool :=
  ('0' ≤ c && c ≤ '9') || ('a' ≤ c && c ≤ 'f') || ('A' ≤ c && c ≤ 'F')

/-- One position of the pattern of a UUID: `x` any digit, `y` a digit of the
variant, and everything else itself. -/
def matchesUuidChar (p c : Char) : Bool :=
  if p = 'x' then isHexDigit c
  else if p = 'y' then c ∈ ['8', '9', 'a', 'b', 'A', 'B']
  else p = c

def matchesUuid : List Char → List Char → Bool
  | [], [] => true
  | p :: ps, c :: cs => matchesUuidChar p c && matchesUuid ps cs
  | _, _ => false

/-- `@IsUUID('4')`. -/
def isUuid4 (s : String) : Bool :=
  matchesUuid "xxxxxxxx-xxxx-4xxx-yxxx-xxxxxxxxxxxx".toList s.toList

def requireIdempotencyKey (headerValue : Option String) : Except Err String :=
  match headerValue with
  | none => .error (customError.badRequest "Idempotency-Key header is required")
  | some raw =>
      if trim raw = "" then .error (customError.badRequest "Idempotency-Key header is required")
      else if isUuid4 (trim raw) then .ok (trim raw)
      else .error (customError.badRequest "Idempotency-Key must be a UUID v4")

/-- The result of code that issues no command. -/
def ofExcept {α : Type} : Except Err α → Program α
  | .ok a => .ret a
  | .error e => .fail e

/-- What the JWT strategy makes of a valid token. -/
structure JwtPayloadUser where
  userId : String
  deriving DecidableEq

/-! ### Passwords and PINs -/

def MAX_AUTH_TRIES : ℕ := 3

def AUTH_LOCK_MS : ℕ := 5 * 60 * 1000

namespace AuthCredentialService

/-- `Math.ceil(milliseconds / 1000)`. -/
def secondsLeft (lockedUntil now : ℕ) : ℤ := -(((now : ℤ) - lockedUntil) / 1000)

def assertNotLocked (lockedUntil : Option ℕ) : Program Unit :=
  match lockedUntil with
  | none => return
  | some lockedUntil => do
      let now : ℕ ← perform .now
      if now < lockedUntil then
        let now : ℕ ← perform .now
        throw (customError.unauthorized
          ("Too many attempts. Try again in " ++ toString (secondsLeft lockedUntil now) ++ " seconds."))
      else return

def lockUntilIfMaxed (attempts : ℕ) : Program (Option ℕ) :=
  if MAX_AUTH_TRIES ≤ attempts then do
    let now : ℕ ← perform .now
    return some (now + AUTH_LOCK_MS)
  else return none

/-- `lockedUntil && lockedUntil <= new Date()`. -/
def lockExpired (lockedUntil : Option ℕ) : Program Bool :=
  match lockedUntil with
  | none => return false
  | some lockedUntil => do
      let now : ℕ ← perform .now
      return lockedUntil ≤ now

/-- The common part of the two checks, with the columns they work on. -/
def checkSecret (secret hash : String) (tryCount : ℕ) (lockedUntil : Option ℕ)
    (reset : Program User) (record : ℕ → Option ℕ → Program User) (invalidMessage : String) :
    Program Unit := do
  let expired ← lockExpired lockedUntil
  if expired then
    let _ ← reset
    compare 0 none
  else
    compare tryCount lockedUntil
where
  compare (tryCount : ℕ) (lockedUntil : Option ℕ) : Program Unit := do
    assertNotLocked lockedUntil
    let valid : Bool ← perform (.bcryptCompare secret hash)
    if valid then
      if 0 < tryCount ∨ lockedUntil.isSome then
        let _ ← reset
        return
      else return
    else
      let attempts := tryCount + 1
      let lockedUntil ← lockUntilIfMaxed attempts
      let _ ← record attempts lockedUntil
      throw (customError.unauthorized invalidMessage)

def verifyPasswordOrThrow (user : User) (password invalidMessage : String) : Program Unit :=
  checkSecret password user.passwordHash user.passwordTryCount user.passwordLockedUntil
    (UserRepository.resetPasswordFailures user.id)
    (UserRepository.recordPasswordFailure user.id) invalidMessage

def verifyPinOrThrow (userId pin : String) : Program Unit := do
  let found ← UserRepository.findById userId
  let user ← orThrow found (customError.unauthorized "User not found")
  throwIf (truthy user.pinHash = false)
    (customError.forbidden "you need to set up your transaction pin first")
  checkSecret pin (user.pinHash.getD "") user.pinTryCount user.pinLockedUntil
    (UserRepository.resetPinFailures user.id) (UserRepository.recordPinFailure user.id)
    "Invalid PIN"

end AuthCredentialService

structure RegisterDto where
  email : String
  username : String
  firstName : String
  lastName : String
  password : String
  confirmPassword : String

structure LoginDto where
  email : String
  password : String

structure CreatePinDto where
  pin : String
  confirmPin : String
  password : String

/-- The user as the responses show it. -/
structure UserView where
  id : String
  email : String
  username : String
  firstName : String
  lastName : String
  walletId : Option String := none
  hasPin : Option Bool := none
  deriving DecidableEq

namespace AuthService

variable (P : Platform)

def signAccessToken (user : User) : String := P.jwtSign user.id user.email user.username

structure AuthResult where
  message : String
  accessToken : Option String
  user : UserView
  deriving DecidableEq

def register (dto : RegisterDto) : Program AuthResult := do
  throwIf (dto.password ≠ dto.confirmPassword)
    (customError.badRequest "password and confirmPassword do not match")
  let email := P.toLowerCase (trim dto.email)
  let username := P.toLowerCase (trim dto.username)
  let firstName := trim dto.firstName
  let lastName := trim dto.lastName
  throwIf (firstName = "" ∨ lastName = "")
    (customError.badRequest "firstName and lastName are required")
  let taken ← UserRepository.findByEmail email
  throwIf taken.isSome (customError.conflict "Email is already registered")
  let taken ← UserRepository.findByUsername username
  throwIf taken.isSome (customError.conflict "Username is already taken")
  let passwordHash : String ← perform (.bcryptHash dto.password)
  let (user, _) ← UserRepository.createWithWallet
    { email, username, firstName, lastName, passwordHash }
  return {
    message := "Account created successfully"
    accessToken := some (signAccessToken P user)
    user :=
      { id := user.id
        email := user.email
        username := user.username
        firstName := user.firstName
        lastName := user.lastName } }

def userView (user : User) (wallet : Wallet) : UserView where
  id := user.id
  email := user.email
  username := user.username
  firstName := user.firstName
  lastName := user.lastName
  walletId := some wallet.id
  hasPin := some (truthy user.pinHash)

def login (dto : LoginDto) : Program AuthResult := do
  let found ← UserRepository.findByEmail (P.toLowerCase (trim dto.email))
  let user ← orThrow found (customError.unauthorized "Invalid credentials")
  AuthCredentialService.verifyPasswordOrThrow user dto.password "Invalid credentials"
  let found ← WalletRepository.findByUserId user.id
  let wallet ← orThrow found (customError.internalServerError "Wallet missing for user")
  return {
    message := "Login successful"
    accessToken := some (signAccessToken P user)
    user := userView user wallet }

def createPin (actor : JwtPayloadUser) (dto : CreatePinDto) : Program String := do
  throwIf (dto.pin ≠ dto.confirmPin) (customError.badRequest "pin and confirmPin do not match")
  let found ← UserRepository.findById actor.userId
  let user ← orThrow found (customError.unauthorized "User not found")
  throwIf (truthy user.pinHash = true) (customError.conflict "PIN is already set")
  AuthCredentialService.verifyPasswordOrThrow user dto.password "Invalid credentials"
  let pinHash : String ← perform (.bcryptHash dto.pin)
  let _ ← UserRepository.setPinHash user.id pinHash
  return "PIN created successfully"

def verifyPin (userId pin : String) : Program Unit :=
  AuthCredentialService.verifyPinOrThrow userId pin

end AuthService

end WalletApi
