import WalletApi.Model.Withdrawals

/-!
The fingerprint of a withdrawal, on the strings of the source language.

A string of the source language is a list of UTF-16 code units, and nothing keeps
its surrogates in pairs. The other modules take texts that are well formed; here the
fields of a body are arbitrary, and so is what the runtime does to letters.
-/

namespace WalletApi

abbrev CodeUnit := UInt16

abbrev JsString := List CodeUnit

/-- A code point of a string; a surrogate without its partner stands for itself. -/
inductive CodePoint
  | unit (u : CodeUnit)
  | pair (lead trail : CodeUnit)
  deriving DecidableEq

namespace JsString

def isLead (u : CodeUnit) : Bool := 0xd800 ≤ u.toNat && u.toNat ≤ 0xdbff

def isTrail (u : CodeUnit) : Bool := 0xdc00 ≤ u.toNat && u.toNat ≤ 0xdfff

/-- The code units of a character. -/
def ofChar (c : Char) : JsString :=
  if c.toNat < 0x10000 then [.ofNat c.toNat]
  else [.ofNat (0xd800 + (c.toNat - 0x10000) / 0x400), .ofNat (0xdc00 + (c.toNat - 0x10000) % 0x400)]

def ofString (s : String) : JsString := s.toList.flatMap ofChar

/-- `StringToCodePoints`. -/
def codePoints : JsString → List CodePoint
  | [] => []
  | [u] => [.unit u]
  | u :: v :: rest =>
      if isLead u && isTrail v then .pair u v :: codePoints rest
      else .unit u :: codePoints (v :: rest)

/-- `UnicodeEscape`: four hexadecimal digits. -/
def unicodeEscape (u : CodeUnit) : JsString :=
  ofString "\\u" ++ ([u.toNat / 4096, u.toNat / 256 % 16, u.toNat / 16 % 16, u.toNat % 16].flatMap
    fun n => ofChar (Nat.digitChar n))

/-- The code units that have an escape of their own, with the letter of the escape. -/
def shortEscapes : List (CodeUnit × CodeUnit) :=
  [(8, 98), (9, 116), (10, 110), (12, 102), (13, 114), (34, 34), (92, 92)]

def escape : CodePoint → JsString
  | .pair u v => [u, v]
  | .unit u =>
      match shortEscapes.lookup u with
      | some letter => [92, letter]
      | none => if u.toNat < 32 || isLead u || isTrail u then unicodeEscape u else [u]

/-- `QuoteJSONString`. -/
def quote (s : JsString) : JsString := 34 :: (codePoints s).flatMap escape ++ [34]

/-- White space is in the basic plane. -/
def isWhiteSpace (u : CodeUnit) : Bool :=
  u.toNat ∈ [9, 10, 11, 12, 13, 32, 0xa0, 0x1680, 0x2000, 0x2001, 0x2002, 0x2003, 0x2004, 0x2005,
    0x2006, 0x2007, 0x2008, 0x2009, 0x200a, 0x2028, 0x2029, 0x202f, 0x205f, 0x3000, 0xfeff]

def trim (s : JsString) : JsString :=
  ((s.dropWhile isWhiteSpace).reverse.dropWhile isWhiteSpace).reverse

/-- A whole number below `10 ^ 21` as it is printed. -/
def intText (n : ℤ) : String := (if n < 0 then "-" else "") ++ toString n.natAbs

/-- The fields of the bodies that are fingerprinted hold strings and whole numbers. -/
inductive Scalar
  | str (s : JsString)
  | int (n : ℤ)
  deriving DecidableEq

def Scalar.stringify : Scalar → JsString
  | str s => quote s
  | int n => ofString (intText n)

def member (field : JsString × Scalar) : JsString := quote field.1 ++ 58 :: field.2.stringify

/-- The members of an object, up to the closing brace. -/
def members : List (JsString × Scalar) → JsString
  | [] => [125]
  | [field] => member field ++ [125]
  | field :: rest => member field ++ 44 :: members rest

/-- `JSON.stringify` of an object. -/
def stringify (fields : List (JsString × Scalar)) : JsString := 123 :: members fields

end JsString

/-- `toLowerCase` and `toUpperCase` of the runtime. -/
structure Casing where
  toLowerCase : JsString → JsString
  toUpperCase : JsString → JsString

/-- The body of `POST /withdrawals`. -/
structure WithdrawalBody where
  destinationType : WithdrawalDestinationType
  recipientUsername : Option JsString := none
  bankCode : Option JsString := none
  accountNumber : Option JsString := none
  accountName : Option JsString := none
  amount : ℤ
  currency : Option JsString := none
  pin : JsString

namespace WithdrawalBody

open JsString

variable (P : Casing) (body : WithdrawalBody)

/-- `(dto.currency ?? 'NGN').toUpperCase()`. -/
def upperCurrency : JsString := P.toUpperCase (body.currency.getD (ofString "NGN"))

/-- `dto.recipientUsername.trim().toLowerCase()`. -/
def recipient : JsString := P.toLowerCase (JsString.trim (body.recipientUsername.getD []))

/-- `field.trim()`. -/
def trimmed (field : Option JsString) : JsString := JsString.trim (field.getD [])

/-- The checks before the body is fingerprinted. -/
def passes : Bool :=
  match body.destinationType with
  | .wallet =>
      body.upperCurrency P = ofString "NGN" && body.recipientUsername.any fun s => s ≠ []
  | .bank =>
      body.upperCurrency P = ofString "NGN" &&
        !(trimmed body.bankCode = [] || trimmed body.accountNumber = [] ||
          trimmed body.accountName = [])

/-- The object that is fingerprinted. -/
def fields : List (JsString × Scalar) :=
  match body.destinationType with
  | .wallet =>
      [(ofString "destinationType", .str (ofString "WALLET")),
        (ofString "recipientUsername", .str (body.recipient P)),
        (ofString "amount", .int body.amount),
        (ofString "currency", .str (body.upperCurrency P))]
  | .bank =>
      [(ofString "destinationType", .str (ofString "BANK")),
        (ofString "bankCode", .str (trimmed body.bankCode)),
        (ofString "accountNumber", .str (trimmed body.accountNumber)),
        (ofString "accountName", .str (trimmed body.accountName)),
        (ofString "amount", .int body.amount),
        (ofString "currency", .str (body.upperCurrency P))]

/-- The text whose digest is the fingerprint; `none` where the body is turned down. -/
def fingerprint : Option JsString :=
  if body.passes P then some (stringify (body.fields P)) else none

end WithdrawalBody

end WalletApi
