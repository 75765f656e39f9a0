import Mathlib.Data.Set.Basic

/-!
Codes that can be read from the front.

A code is readable if its words can be told from what follows them: two texts that
begin with a word each and agree begin with the same word and continue in the same
way. A sequence of words is readable too once it is closed with a mark that no word
begins with, and so is a text that is closed with a mark that does not occur in it.
-/

namespace PrefixCode

variable {α β γ : Type} {S : Set α} {code : α → List β} {stop : β}

/-- The words of `S` can be told from what follows them. -/
def Readable (S : Set α) (code : α → List β) : Prop :=
  ∀ a ∈ S, ∀ b ∈ S, ∀ x y, code a ++ x = code b ++ y → a = b ∧ x = y

theorem Readable.comp {f : γ → α} (h : Readable S code) (hf : Function.Injective f) :
    Readable (Set.preimage f S) fun c => code (f c) := by
  intro a ha b hb x y heq
  obtain ⟨hab, hrest⟩ := h (f a) ha (f b) hb x y heq
  exact ⟨hf hab, hrest⟩

/-- Words that are closed with a mark. -/
theorem Readable.flatMap (h : Readable S code)
    (hstop : ∀ a ∈ S, ∀ x y, code a ++ x ≠ stop :: y) :
    Readable {l : List α | ∀ a ∈ l, a ∈ S} fun l => l.flatMap code ++ [stop] := by
  intro l
  induction l with
  | nil =>
      intro _ l' hl' x y heq
      cases l' with
      | nil => exact ⟨rfl, by simpa using heq⟩
      | cons b l' =>
          refine absurd ?_ (hstop b (hl' b (.head _)) (l'.flatMap code ++ [stop] ++ y) x)
          simpa using heq.symm
  | cons a l ih =>
      intro hl l' hl' x y heq
      cases l' with
      | nil =>
          refine absurd ?_ (hstop a (hl a (.head _)) (l.flatMap code ++ [stop] ++ x) y)
          simpa using heq
      | cons b l' =>
          simp only [List.flatMap_cons, List.append_assoc] at heq
          obtain ⟨rfl, hrest⟩ := h a (hl a (.head _)) b (hl' b (.head _)) _ _ heq
          simp only [← List.append_assoc] at hrest
          obtain ⟨rfl, hxy⟩ := ih (fun c hc => hl c (.tail _ hc)) l'
            (fun c hc => hl' c (.tail _ hc)) x y hrest
          exact ⟨rfl, hxy⟩

/-- A text that is closed with a mark which does not occur in it. The marks may be
different ones. -/
theorem eq_of_append_stop {P : β → Prop} {l l' x y : List β} {s s' : β} (hl : ∀ b ∈ l, P b)
    (hl' : ∀ b ∈ l', P b) (hs : ¬P s) (hs' : ¬P s') (h : l ++ s :: x = l' ++ s' :: y) :
    l = l' ∧ s = s' ∧ x = y := by
  induction l generalizing l' with
  | nil =>
      cases l' with
      | nil =>
          obtain ⟨rfl, rfl⟩ := List.cons.inj h
          exact ⟨rfl, rfl, rfl⟩
      | cons b l' =>
          obtain ⟨rfl, -⟩ := List.cons.inj h
          exact absurd (hl' s (.head _)) hs
  | cons a l ih =>
      cases l' with
      | nil =>
          obtain ⟨rfl, -⟩ := List.cons.inj h
          exact absurd (hl a (.head _)) hs'
      | cons b l' =>
          obtain ⟨rfl, hrest⟩ := List.cons.inj h
          obtain ⟨rfl, hend⟩ := ih (fun c hc => hl c (.tail _ hc)) (fun c hc => hl' c (.tail _ hc))
            hrest
          exact ⟨rfl, hend⟩

end PrefixCode
