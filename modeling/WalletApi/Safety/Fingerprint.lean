import WalletApi.Model.Fingerprint
import WalletApi.Text.PrefixCode

/-!
What the fingerprint of a withdrawal tells apart.

The text that is digested is the JSON of an object whose members hold strings and
whole numbers. Such a text can be read from the front: a quoted string ends with the
first quotation mark that is not part of an escape, and an escape shows the code
unit that it stands for. So two texts are equal only if the objects are, and the
objects are made from nothing but what the request asks for.
-/

namespace WalletApi

open PrefixCode

namespace JsString

variable {s s' : JsString} {u v : CodeUnit} {p : CodePoint} {n m : ℤ}

/-! ### Quoted strings -/

/-- The code units of a code point. -/
def units : CodePoint → JsString
  | .unit u => [u]
  | .pair u v => [u, v]

theorem flatMap_units (s : JsString) : (codePoints s).flatMap units = s := by
  fun_induction codePoints s with
  | case1 => rfl
  | case2 u => rfl
  | case3 u v rest h ih => simp [units, ih]
  | case4 u v rest h ih => simp [units, ih]

theorem codePoints_injective : Function.Injective codePoints := by
  have hinv : Function.LeftInverse (fun l : List CodePoint => l.flatMap units) codePoints :=
    flatMap_units
  exact hinv.injective

/-- A pair begins with a lead surrogate. -/
def Paired : CodePoint → Prop
  | .unit _ => True
  | .pair u _ => isLead u = true

theorem paired_of_mem (h : p ∈ codePoints s) : Paired p := by
  fun_induction codePoints s with
  | case1 => cases h
  | case2 u =>
      rw [List.mem_singleton.mp h]
      trivial
  | case3 u v rest hpair ih =>
      rcases List.mem_cons.mp h with rfl | h
      · exact (Bool.and_eq_true _ _ ▸ hpair).1
      · exact ih h
  | case4 u v rest hpair ih =>
      rcases List.mem_cons.mp h with rfl | h
      · trivial
      · exact ih h

/-- The four digits of an escape. -/
def hexDigits (u : CodeUnit) : JsString :=
  [u.toNat / 4096, u.toNat / 256 % 16, u.toNat / 16 % 16, u.toNat % 16].flatMap
    fun n => ofChar (Nat.digitChar n)

/-- How a code unit that is no part of a pair is written. -/
inductive Escaped (u : CodeUnit) : JsString → Prop
  | short (letter : CodeUnit) (h : (u, letter) ∈ shortEscapes) : Escaped u [92, letter]
  | unicode : Escaped u (92 :: 117 :: hexDigits u)
  | plain (h : u ≠ 92 ∧ u ≠ 34) (hlead : isLead u = false) : Escaped u [u]

theorem escaped (u : CodeUnit) : Escaped u (escape (.unit u)) := by
  rw [escape]
  split
  · rename_i letter hshort
    obtain ⟨before, after, hmem, -⟩ := List.lookup_eq_some_iff.mp hshort
    exact .short letter (by simp [hmem])
  · rename_i hshort
    split
    · exact .unicode
    · rename_i h
      simp only [Bool.or_eq_true, not_or, Bool.not_eq_true] at h
      refine .plain ⟨?_, ?_⟩ h.1.2
      · rintro rfl
        cases hshort
      · rintro rfl
        cases hshort

theorem digit_injective : ∀ n < 16, ∀ m < 16,
    ofChar (Nat.digitChar n) = ofChar (Nat.digitChar m) → n = m := by
  decide

theorem length_digit : ∀ n < 16, (ofChar (Nat.digitChar n)).length = 1 := by
  decide

theorem hexDigits_injective {x y : JsString} (h : hexDigits u ++ x = hexDigits v ++ y) :
    u = v ∧ x = y := by
  have hu := u.toNat_lt
  have hv := v.toNat_lt
  have hlen (n : ℕ) (hn : n < 16) (m : ℕ) (hm : m < 16) :
      (ofChar (Nat.digitChar n)).length = (ofChar (Nat.digitChar m)).length :=
    (length_digit n hn).trans (length_digit m hm).symm
  simp only [hexDigits, List.flatMap_cons, List.flatMap_nil, List.append_assoc, List.append_nil] at h
  obtain ⟨h₁, h⟩ := List.append_inj h (hlen _ (by omega) _ (by omega))
  obtain ⟨h₂, h⟩ := List.append_inj h (hlen _ (by omega) _ (by omega))
  obtain ⟨h₃, h⟩ := List.append_inj h (hlen _ (by omega) _ (by omega))
  obtain ⟨h₄, h⟩ := List.append_inj h (hlen _ (by omega) _ (by omega))
  have e₁ := digit_injective _ (by omega) _ (by omega) h₁
  have e₂ := digit_injective _ (by omega) _ (by omega) h₂
  have e₃ := digit_injective _ (by omega) _ (by omega) h₃
  have e₄ := digit_injective _ (by omega) _ (by omega) h₄
  exact ⟨UInt16.toNat_inj.mp (by omega), h⟩

theorem letters_injective : ∀ p ∈ shortEscapes, ∀ q ∈ shortEscapes, p.2 = q.2 → p.1 = q.1 := by
  simp [shortEscapes]

theorem letter_ne_u : ∀ p ∈ shortEscapes, p.2 ≠ 117 := by
  simp [shortEscapes]

/-- An escape shows the code unit that it stands for. -/
theorem escaped_injective {l l' x y : JsString} (h : Escaped u l) (h' : Escaped v l')
    (heq : l ++ x = l' ++ y) : u = v ∧ x = y := by
  cases h with
  | short letter hmem =>
      cases h' with
      | short letter' hmem' =>
          simp only [List.cons_append, List.nil_append, List.cons.injEq, true_and] at heq
          exact ⟨letters_injective _ hmem _ hmem' heq.1, heq.2⟩
      | unicode =>
          simp only [List.cons_append, List.nil_append, List.cons.injEq, true_and] at heq
          exact absurd heq.1 (letter_ne_u _ hmem)
      | plain hv hlead =>
          simp only [List.cons_append, List.nil_append, List.cons.injEq] at heq
          exact absurd heq.1.symm hv.1
  | unicode =>
      cases h' with
      | short letter' hmem' =>
          simp only [List.cons_append, List.nil_append, List.cons.injEq, true_and] at heq
          exact absurd heq.1.symm (letter_ne_u _ hmem')
      | unicode =>
          simp only [List.cons_append, List.cons.injEq, true_and] at heq
          exact hexDigits_injective heq
      | plain hv hlead =>
          simp only [List.cons_append, List.nil_append, List.cons.injEq] at heq
          exact absurd heq.1.symm hv.1
  | plain hu hlead =>
      cases h' with
      | short letter' hmem' =>
          simp only [List.cons_append, List.nil_append, List.cons.injEq] at heq
          exact absurd heq.1 hu.1
      | unicode =>
          simp only [List.cons_append, List.nil_append, List.cons.injEq] at heq
          exact absurd heq.1 hu.1
      | plain hv hlead' =>
          simpa only [List.cons_append, List.nil_append, List.cons.injEq] using heq

/-- A pair is not the beginning of anything else. -/
theorem pair_ne_escaped {l x y : JsString} (hu : isLead u = true) (h : Escaped v l) :
    u :: x ≠ l ++ y := by
  intro heq
  cases h with
  | short letter hmem =>
      obtain ⟨rfl, -⟩ := List.cons.inj heq
      cases hu
  | unicode =>
      obtain ⟨rfl, -⟩ := List.cons.inj heq
      cases hu
  | plain hv hlead =>
      obtain ⟨rfl, -⟩ := List.cons.inj heq
      cases hu.symm.trans hlead

theorem readable_escape : Readable {p | Paired p} escape := by
  intro p hp q hq x y heq
  cases p with
  | unit u =>
      cases q with
      | unit v =>
          obtain ⟨rfl, hrest⟩ := escaped_injective (escaped u) (escaped v) heq
          exact ⟨rfl, hrest⟩
      | pair v v' => exact absurd heq.symm (pair_ne_escaped hq (escaped u))
  | pair u u' =>
      cases q with
      | unit v => exact absurd heq (pair_ne_escaped hp (escaped v))
      | pair v v' =>
          simp only [escape, List.cons_append, List.nil_append, List.cons.injEq] at heq
          obtain ⟨rfl, rfl, hrest⟩ := heq
          exact ⟨rfl, hrest⟩

theorem escape_ne_quote (hp : Paired p) (x y : JsString) : escape p ++ x ≠ 34 :: y := by
  intro heq
  cases p with
  | unit u =>
      have h := escaped u
      generalize escape (.unit u) = l at h heq
      cases h with
      | short letter hmem => cases heq
      | unicode => cases heq
      | plain hu hlead => exact hu.2 (List.cons.inj heq).1
  | pair u v =>
      obtain ⟨rfl, -⟩ := List.cons.inj heq
      cases hp

/-- A quoted string can be read from the front. -/
theorem quote_injective {x y : JsString} (h : quote s ++ x = quote s' ++ y) : s = s' ∧ x = y := by
  have hread := (readable_escape.flatMap fun _ hp => escape_ne_quote hp).comp codePoints_injective
  simp only [quote, List.cons_append, List.cons.injEq, true_and] at h
  exact hread s (fun _ => paired_of_mem) s' (fun _ => paired_of_mem) x y h

/-! ### Numbers -/

/-- A code unit of a whole number. -/
def Numeral (u : CodeUnit) : Prop := u = 45 ∨ 48 ≤ u.toNat ∧ u.toNat ≤ 57

/-- The text of a whole number. -/
theorem intText_eq (n : ℤ) :
    intText n = (if n < 0 then "-" else "") ++ toString n.natAbs := by
  simp [intText]

/-- The code unit of a digit. -/
def digitUnit (c : Char) : CodeUnit := .ofNat c.toNat

theorem toNat_digitUnit {c : Char} (hc : c.isDigit = true) :
    (digitUnit c).toNat = c.toNat ∧ 48 ≤ c.toNat ∧ c.toNat ≤ 57 := by
  have hbounds : 48 ≤ c.toNat ∧ c.toNat ≤ 57 := by
    simpa [Char.isDigit, UInt32.le_iff_toNat_le] using hc
  have hsmall : c.toNat % 65536 = c.toNat := Nat.mod_eq_of_lt (by omega)
  exact ⟨hsmall, hbounds⟩

theorem ofChar_digit {c : Char} (hc : c.isDigit = true) : ofChar c = [digitUnit c] := by
  have := toNat_digitUnit hc
  exact if_pos (by omega)

theorem ofString_intText (n : ℤ) :
    ofString (intText n) =
      (if n < 0 then [45] else []) ++ (Nat.toDigits 10 n.natAbs).map digitUnit := by
  have hdigits : (Nat.toDigits 10 n.natAbs).flatMap ofChar =
      (Nat.toDigits 10 n.natAbs).map digitUnit := by
    rw [← List.flatMap_singleton' ((Nat.toDigits 10 n.natAbs).map digitUnit), List.flatMap_map]
    refine List.flatMap_congr fun c hc => ?_
    exact ofChar_digit (Nat.isDigit_of_mem_toDigits (by omega) (by omega) hc)
  rw [intText_eq, ofString, String.toList_append, List.flatMap_append,
    Nat.toString_eq_repr, Nat.toList_repr, hdigits]
  split <;> rfl

theorem numeral_of_mem (h : u ∈ ofString (intText n)) : Numeral u := by
  rw [ofString_intText] at h
  rcases List.mem_append.mp h with h | h
  · split at h
    · exact .inl (List.mem_singleton.mp h)
    · cases h
  · obtain ⟨c, hc, rfl⟩ := List.mem_map.mp h
    have hbounds := toNat_digitUnit (Nat.isDigit_of_mem_toDigits (by omega) (by omega) hc)
    exact .inr (by omega)

theorem toDigits_injective {a b : ℕ} (h : Nat.toDigits 10 a = Nat.toDigits 10 b) : a = b := by
  have hinv := congrArg (fun l => Nat.ofDigitChars 10 l 0) h
  simpa only [Nat.ofDigitChars_ten_toDigits, Nat.mul_zero, Nat.zero_add] using hinv

theorem map_digitUnit_injective {l l' : List Char} (hl : ∀ c ∈ l, c.isDigit = true)
    (hl' : ∀ c ∈ l', c.isDigit = true) (h : l.map digitUnit = l'.map digitUnit) : l = l' := by
  have hinv : ∀ l : List Char, (∀ c ∈ l, c.isDigit = true) →
      (l.map digitUnit).map (fun u => Char.ofNat u.toNat) = l := by
    intro l hl
    rw [List.map_map]
    refine (List.map_congr_left fun c hc => ?_).trans l.map_id
    simp [Function.comp, (toNat_digitUnit (hl c hc)).1]
  rw [← hinv l hl, ← hinv l' hl', h]

theorem intText_injective (h : ofString (intText n) = ofString (intText m)) : n = m := by
  have hdigits (k : ℤ) : ∀ c ∈ Nat.toDigits 10 k.natAbs, c.isDigit = true := fun c hc =>
    Nat.isDigit_of_mem_toDigits (by omega) (by omega) hc
  have hsign (k : ℤ) : 45 ∉ (Nat.toDigits 10 k.natAbs).map digitUnit := by
    intro hmem
    obtain ⟨c, hc, hu⟩ := List.mem_map.mp hmem
    have hbounds := toNat_digitUnit (hdigits k c hc)
    rw [hu] at hbounds
    have : (45 : CodeUnit).toNat = 45 := rfl
    omega
  rw [ofString_intText, ofString_intText] at h
  split at h <;> split at h
  · have := toDigits_injective (map_digitUnit_injective (hdigits n) (hdigits m) (List.cons.inj h).2)
    omega
  · have hm : (45 : CodeUnit) ∈ [] ++ (Nat.toDigits 10 m.natAbs).map digitUnit :=
      h ▸ List.mem_cons_self
    exact absurd hm (hsign m)
  · have hn : (45 : CodeUnit) ∈ [] ++ (Nat.toDigits 10 n.natAbs).map digitUnit :=
      h ▸ List.mem_cons_self
    exact absurd hn (hsign n)
  · have := toDigits_injective (map_digitUnit_injective (hdigits n) (hdigits m) h)
    omega

/-! ### Members -/

variable {a b : Scalar} {f g : JsString × Scalar} {x y : JsString}

/-- What ends a member: a comma, or the brace that closes the object. -/
def Ends (d : CodeUnit) : Prop := d = 44 ∨ d = 125

theorem not_numeral_of_ends {d : CodeUnit} (hd : Ends d) : ¬Numeral d := by
  rcases hd with rfl | rfl <;> (unfold Numeral; decide)

theorem exists_numeral (n : ℤ) : ∃ c rest, ofString (intText n) = c :: rest ∧ Numeral c := by
  cases hn : ofString (intText n) with
  | nil =>
      rw [ofString_intText] at hn
      have hnil := List.map_eq_nil_iff.mp (List.append_eq_nil_iff.mp hn).2
      exact absurd hnil Nat.toDigits_ne_nil
  | cons c rest => exact ⟨c, rest, rfl, numeral_of_mem (hn ▸ List.mem_cons_self)⟩

/-- A quoted string is no number. -/
theorem quote_ne_intText : quote s ++ x ≠ ofString (intText n) ++ y := by
  intro h
  obtain ⟨c, rest, hn, hc⟩ := exists_numeral n
  rw [hn] at h
  obtain ⟨rfl, -⟩ := List.cons.inj h
  revert hc
  unfold Numeral
  decide

theorem scalar_injective {d d' : CodeUnit} (hd : Ends d) (hd' : Ends d')
    (h : a.stringify ++ d :: x = b.stringify ++ d' :: y) : a = b ∧ d = d' ∧ x = y := by
  cases a with
  | str s =>
      cases b with
      | str s' =>
          obtain ⟨rfl, hrest⟩ := quote_injective h
          obtain ⟨rfl, rfl⟩ := List.cons.inj hrest
          exact ⟨rfl, rfl, rfl⟩
      | int m => exact absurd h quote_ne_intText
  | int n =>
      cases b with
      | str s' => exact absurd h.symm quote_ne_intText
      | int m =>
          obtain ⟨hnum, hend⟩ := eq_of_append_stop (fun _ => numeral_of_mem)
            (fun _ => numeral_of_mem) (not_numeral_of_ends hd) (not_numeral_of_ends hd') h
          rw [intText_injective hnum]
          exact ⟨rfl, hend⟩

theorem member_injective {d d' : CodeUnit} (hd : Ends d) (hd' : Ends d')
    (h : member f ++ d :: x = member g ++ d' :: y) : f = g ∧ d = d' ∧ x = y := by
  simp only [member, List.append_assoc, List.cons_append] at h
  obtain ⟨hname, hrest⟩ := quote_injective h
  obtain ⟨hvalue, hend⟩ := scalar_injective hd hd' (List.cons.inj hrest).2
  exact ⟨Prod.ext hname hvalue, hend⟩

theorem member_ne_brace : member f ++ x ≠ 125 :: y := by
  intro h
  cases h

theorem members_injective {fields fields' : List (JsString × Scalar)}
    (h : members fields = members fields') : fields = fields' := by
  fun_induction members fields generalizing fields' with
  | case1 =>
      rcases fields' with _ | ⟨g, _ | ⟨g', rest'⟩⟩
      · rfl
      · exact absurd h.symm member_ne_brace
      · exact absurd h.symm member_ne_brace
  | case2 f =>
      rcases fields' with _ | ⟨g, _ | ⟨g', rest'⟩⟩
      · exact absurd h member_ne_brace
      · obtain ⟨rfl, -⟩ := member_injective (.inr rfl) (.inr rfl) h
        rfl
      · obtain ⟨-, hne, -⟩ := member_injective (.inr rfl) (.inl rfl) h
        cases hne
  | case3 f rest hne ih =>
      rcases fields' with _ | ⟨g, _ | ⟨g', rest'⟩⟩
      · exact absurd h member_ne_brace
      · obtain ⟨-, hends, -⟩ := member_injective (.inl rfl) (.inr rfl) h
        cases hends
      · obtain ⟨rfl, -, hrest⟩ := member_injective (.inl rfl) (.inl rfl) h
        rw [ih hrest]

theorem stringify_injective {fields fields' : List (JsString × Scalar)}
    (h : stringify fields = stringify fields') : fields = fields' :=
  members_injective (List.cons.inj h).2

end JsString

namespace WithdrawalBody

open JsString

/-! ### What a withdrawal asks for -/

/-- Two bodies ask for the same withdrawal. -/
structure SameIntent (P : Casing) (body body' : WithdrawalBody) : Prop where
  destinationType : body.destinationType = body'.destinationType
  amount : body.amount = body'.amount
  currency : body.upperCurrency P = body'.upperCurrency P
  wallet : body.destinationType = .wallet → body.recipient P = body'.recipient P
  bank : body.destinationType = .bank → trimmed body.bankCode = trimmed body'.bankCode ∧
    trimmed body.accountNumber = trimmed body'.accountNumber ∧
    trimmed body.accountName = trimmed body'.accountName

theorem fields_eq_iff (P : Casing) (body body' : WithdrawalBody) :
    body.fields P = body'.fields P ↔ SameIntent P body body' := by
  constructor
  · intro h
    unfold fields at h
    cases hty : body.destinationType with
    | wallet =>
        cases hty' : body'.destinationType with
        | wallet =>
            simp only [hty, hty', List.cons.injEq, Prod.mk.injEq, Scalar.str.injEq,
              Scalar.int.injEq, true_and, and_true] at h
            obtain ⟨hrecipient, hamount, hcurrency⟩ := h
            refine ⟨hty.trans hty'.symm, hamount, hcurrency, fun _ => hrecipient, fun hbank => ?_⟩
            cases hty.symm.trans hbank
        | bank => simp [hty, hty'] at h
    | bank =>
        cases hty' : body'.destinationType with
        | wallet => simp [hty, hty'] at h
        | bank =>
            simp only [hty, hty', List.cons.injEq, Prod.mk.injEq, Scalar.str.injEq,
              Scalar.int.injEq, true_and, and_true] at h
            obtain ⟨hcode, hnumber, hname, hamount, hcurrency⟩ := h
            refine ⟨hty.trans hty'.symm, hamount, hcurrency, fun hwallet => ?_,
              fun _ => ⟨hcode, hnumber, hname⟩⟩
            cases hty.symm.trans hwallet
  · intro h
    unfold fields
    rw [← h.destinationType, h.amount, h.currency]
    cases hty : body.destinationType with
    | wallet => rw [h.wallet hty]
    | bank =>
        obtain ⟨hcode, hnumber, hname⟩ := h.bank hty
        rw [hcode, hnumber, hname]

/-- The texts that are digested for two bodies that pass the checks are equal if and
only if the bodies ask for the same withdrawal. -/
theorem fingerprint_eq_iff (P : Casing) {body body' : WithdrawalBody} {text text' : JsString}
    (h : body.fingerprint P = some text) (h' : body'.fingerprint P = some text') :
    text = text' ↔ SameIntent P body body' := by
  have htext : stringify (body.fields P) = text := by
    unfold fingerprint at h
    split at h
    · exact Option.some.inj h
    · cases h
  have htext' : stringify (body'.fields P) = text' := by
    unfold fingerprint at h'
    split at h'
    · exact Option.some.inj h'
    · cases h'
  rw [← htext, ← htext', ← fields_eq_iff]
  exact ⟨stringify_injective, congrArg stringify⟩

/-- The letters of the basic alphabet. -/
def basicCasing : Casing where
  toLowerCase := List.map fun u => if 65 ≤ u ∧ u ≤ 90 then u + 32 else u
  toUpperCase := List.map fun u => if 97 ≤ u ∧ u ≤ 122 then u - 32 else u

/-- A recipient with a quotation mark, a backslash, a line feed and half of a pair. -/
def toStrange : WithdrawalBody where
  destinationType := .wallet
  recipientUsername := some [32, 66, 34, 92, 10, 0xd800]
  amount := 500
  pin := ofString "1234"

/-- The same request in other words. -/
def toStrange' : WithdrawalBody where
  destinationType := .wallet
  recipientUsername := some [98, 34, 92, 10, 0xd800, 9]
  bankCode := some (ofString "058")
  amount := 500
  currency := some (ofString "ngn")
  pin := ofString "4321"

theorem fingerprint_eq_iff_toStrange :
    ∃ text, toStrange.fingerprint basicCasing = some text ∧
      toStrange'.fingerprint basicCasing = some text ∧
      SameIntent basicCasing toStrange toStrange' :=
  have h : toStrange.fingerprint basicCasing =
      some (stringify (toStrange.fields basicCasing)) := by decide
  have h' : toStrange'.fingerprint basicCasing =
      some (stringify (toStrange.fields basicCasing)) := by decide
  ⟨_, h, h', (fingerprint_eq_iff basicCasing h h').mp rfl⟩

end WithdrawalBody

end WalletApi
