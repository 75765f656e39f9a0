import Mathlib.Algebra.Order.Ring.Int

/-!
The numbers of JavaScript.

A number is a double. What is rounded, printed or compared here is its exact value,
which is a fraction with a power of two as its denominator. A number is printed with
as few digits as it takes to read it back; of the decimals that do, the closest one.
-/

namespace JsNumber

open Float.Model

/-- The exact value as a fraction; `none` is `NaN` or infinite. -/
def ratio (x : Float) : Option (ℤ × ℕ) :=
  match x.toModel.unpack with
  | .zero _ => some (0, 1)
  | .finite .positive m e _ => some (m * 2 ^ e.toNat, 2 ^ (-e).toNat)
  | .finite .negative m e _ => some (-(m * 2 ^ e.toNat), 2 ^ (-e).toNat)
  | .notANumber | .infinity _ => none

/-- `Math.round`, which rounds halves up; `none` is `NaN` or infinite. -/
def round (x : Float) : Option ℤ :=
  (ratio x).map fun (a, b) => (2 * a + b) / (2 * b)

/-- A number that JavaScript takes for true. -/
def isTruthy (x : Float) : Bool :=
  match x.toModel.unpack with
  | .zero _ | .notANumber => false
  | _ => true

/-- The number that is written as `digits * 10 ^ exponent`. -/
def ofDecimal (digits : ℕ) (exponent : ℤ) : Float :=
  .ofModel (Float.Model.ofScientific digits exponent)

/-- How many digits the whole part of the fraction `a / b` has; for a fraction below
one, minus the number of zeros after the point. -/
def magnitude (a b : ℕ) : ℤ :=
  if b ≤ a then (toString (a / b)).length else 1 - (toString ((b - 1) / a)).length

/-- The two decimals with the given exponent next to the fraction, the closer one
first. -/
def neighbours (a b : ℕ) (exponent : ℤ) : List ℕ :=
  let a := a * 10 ^ (-exponent).toNat
  let b := b * 10 ^ exponent.toNat
  let below := a / b
  let rest := 2 * (a % b)
  if rest < b ∨ rest = b ∧ below % 2 = 0 then [below, below + 1] else [below + 1, below]

/-- The shortest decimal that reads back as the positive number `x`, which is the
fraction `a / b`. -/
def shortest (x : Float) (a b : ℕ) : ℕ × ℤ :=
  let n := magnitude a b
  let found := (List.range 17).findSome? fun (k : ℕ) =>
    let exponent := n - (k + 1)
    ((neighbours a b exponent).find? fun digits => ofDecimal digits exponent = x).map
      fun digits => (digits, exponent)
  found.getD (0, 0)

/-- A decimal as it is printed; an exponent is used from `10 ^ 21` on and below
`10 ^ -6`. -/
def decimalText (digits : ℕ) (exponent : ℤ) : String :=
  let all := (toString digits).toList
  let shown := (all.reverse.dropWhile (· = '0')).reverse
  let k : ℤ := shown.length
  let n : ℤ := exponent + all.length
  if k ≤ n ∧ n ≤ 21 then String.ofList (shown ++ List.replicate (n - k).toNat '0')
  else if 0 < n ∧ n ≤ 21 then
    String.ofList (shown.take n.toNat ++ '.' :: shown.drop n.toNat)
  else if -6 < n ∧ n ≤ 0 then
    String.ofList ('0' :: '.' :: (List.replicate (-n).toNat '0' ++ shown))
  else
    String.ofList (shown.take 1 ++ if k = 1 then [] else '.' :: shown.drop 1) ++
      (if 0 < n then "e+" else "e-") ++ toString (n - 1).natAbs

/-- `Number::toString`. -/
def toText (x : Float) : String :=
  match x.toModel.unpack with
  | .notANumber => "NaN"
  | .infinity .positive => "Infinity"
  | .infinity .negative => "-Infinity"
  | .zero _ => "0"
  | .finite sign m e _ =>
      let x := match sign with
        | .positive => x
        | .negative => -x
      let (digits, exponent) := shortest x (m * 2 ^ e.toNat) (2 ^ (-e).toNat)
      (match sign with
        | .positive => ""
        | .negative => "-") ++ decimalText digits exponent

example : [1e21, 1e-7, 0.000001, -0.1, 9007199254740993].map toText =
    ["1e+21", "1e-7", "0.000001", "-0.1", "9007199254740992"] := by
  decide +kernel

example : [1.005 * 100, 9.995 * 100, -0.5].map round = [some 100, some 999, some 0] := by
  decide +kernel

/-! ### The characters of a printed number -/

theorem ne_null_of_mem_toString {n : ℕ} :
    ∀ c ∈ (toString n).toList, c ≠ Char.ofNat 0 := by
  intro c hc
  rw [Nat.toString_eq_repr, Nat.toList_repr] at hc
  have hdigit : c.isDigit = true := Nat.isDigit_of_mem_toDigits (by decide) (by decide) hc
  rintro rfl
  cases hdigit

theorem ne_null_of_mem_decimalText {digits : ℕ} {exponent : ℤ} :
    ∀ c ∈ (decimalText digits exponent).toList, c ≠ Char.ofNat 0 := by
  intro c h
  have hshown {c : Char} (hc : c ∈ ((toString digits).toList.reverse.dropWhile (· = '0')).reverse) :
      c ≠ Char.ofNat 0 :=
    ne_null_of_mem_toString c
      (List.mem_reverse.mp ((List.dropWhile_sublist _).subset (List.mem_reverse.mp hc)))
  have hsigns : ∀ c ∈ ['0', '.'], c ≠ Char.ofNat 0 := by simp
  have hexponent : (∀ c ∈ "e+".toList, c ≠ Char.ofNat 0) ∧ ∀ c ∈ "e-".toList, c ≠ Char.ofNat 0 := by
    simp
  dsimp only [decimalText] at h
  split at h
  · simp only [String.toList_ofList, List.mem_append, List.mem_replicate] at h
    grind
  · split at h
    · simp only [String.toList_ofList, List.mem_append, List.mem_cons] at h
      grind [List.mem_of_mem_take, List.mem_of_mem_drop]
    · split at h
      · simp only [String.toList_ofList, List.mem_append, List.mem_cons, List.mem_replicate] at h
        grind
      · simp only [String.toList_append, String.toList_ofList, List.mem_append] at h
        rcases h with (h | h) | h
        · grind [List.mem_of_mem_take, List.mem_of_mem_drop]
        · split at h
          · exact hexponent.1 c h
          · exact hexponent.2 c h
        · exact ne_null_of_mem_toString c h

/-- A number is printed without U+0000. -/
theorem ne_null_of_mem_toText {x : Float} : ∀ c ∈ (toText x).toList, c ≠ Char.ofNat 0 := by
  unfold toText
  split
  · simp
  · simp
  · simp
  · simp
  · intro c h
    rcases List.mem_append.mp (String.toList_append ▸ h) with h | h
    · split at h
      · cases h
      · rw [List.mem_singleton.mp h]
        decide
    · exact ne_null_of_mem_decimalText c h

end JsNumber
