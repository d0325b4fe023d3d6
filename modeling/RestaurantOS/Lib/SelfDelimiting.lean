import Mathlib.Data.List.Basic

/-!
# Self-delimiting codes

A code writes values as lists of symbols. It is self-delimiting if a written value ends at one place
only, whatever follows it: then values that are written one after the other can be taken apart again.
The rules say which codes are: one that a reader undoes (`of_read`), one whose words end at the first
terminator (`terminated`), a list between its elements' words and a closing symbol (`closed`), a text
framed by its length (`framed`), and pairs and constant words of these. A sequence of words of a
self-delimiting code determines what was written (`flatMap_injective`).
-/

/-- A written value ends at one place only. -/
def SelfDelimiting {α β : Type*} (code : β → List α) : Prop :=
  ∀ ⦃a b : β⦄ ⦃rest rest' : List α⦄, code a ++ rest = code b ++ rest' → a = b ∧ rest = rest'

namespace SelfDelimiting

variable {α β γ : Type*} {code : β → List α}

/-- Different values are written differently. -/
theorem injective (h : SelfDelimiting code) : Function.Injective code := by
  intro a b hab
  have happend : code a ++ [] = code b ++ [] := by rw [hab]
  exact (h happend).1

/-- A code that a reader undoes, with whatever follows. -/
theorem of_read (read : List α → Option (β × List α))
    (hread : ∀ a rest, read (code a ++ rest) = some (a, rest)) : SelfDelimiting code := by
  intro a b rest rest' h
  have hsome : some (a, rest) = some (b, rest') := by rw [← hread, h, hread]
  exact Prod.mk.inj (Option.some.inj hsome)

/-- The values are named differently. -/
theorem comp (h : SelfDelimiting code) {f : γ → β} (hf : Function.Injective f) :
    SelfDelimiting fun c => code (f c) := by
  intro a b rest rest' hab
  obtain ⟨hvalue, hrest⟩ := h hab
  exact ⟨hf hvalue, hrest⟩

/-- A constant word before every value. -/
theorem const_append (word : List α) (h : SelfDelimiting code) :
    SelfDelimiting fun a => word ++ code a := by
  intro a b rest rest' hab
  rw [List.append_assoc, List.append_assoc] at hab
  exact h (List.append_cancel_left hab)

/-- A constant word after every value. -/
theorem append_const (h : SelfDelimiting code) (word : List α) :
    SelfDelimiting fun a => code a ++ word := by
  intro a b rest rest' hab
  rw [List.append_assoc, List.append_assoc] at hab
  obtain ⟨hvalue, hrest⟩ := h hab
  exact ⟨hvalue, List.append_cancel_left hrest⟩

/-- Two values one after the other. -/
theorem append {code' : γ → List α} (h : SelfDelimiting code) (h' : SelfDelimiting code') :
    SelfDelimiting fun p : β × γ => code p.1 ++ code' p.2 := by
  rintro ⟨a, c⟩ ⟨b, d⟩ rest rest' hab
  rw [List.append_assoc, List.append_assoc] at hab
  obtain ⟨rfl, hsecond⟩ := h hab
  obtain ⟨rfl, hrest⟩ := h' hsecond
  exact ⟨rfl, hrest⟩

/-- What stands before the first separator, and what stands after it. Neither part before it has
one, so the separator tells where to cut. -/
theorem append_separator_inj {separator : α} {before before' after after' : List α}
    (hbefore : separator ∉ before) (hbefore' : separator ∉ before')
    (h : before ++ separator :: after = before' ++ separator :: after') :
    before = before' ∧ after = after' := by
  induction before generalizing before' with
  | nil =>
    cases before' with
    | nil => exact ⟨rfl, (List.cons.inj h).2⟩
    | cons c before' =>
      have hc : separator = c := (List.cons.inj h).1
      exact absurd (hc ▸ List.mem_cons_self) hbefore'
  | cons c before ih =>
    cases before' with
    | nil =>
      have hc : c = separator := (List.cons.inj h).1
      exact absurd (hc ▸ List.mem_cons_self) hbefore
    | cons c' before' =>
      obtain ⟨rfl, hrest⟩ := List.cons.inj h
      obtain ⟨rfl, hafter⟩ := ih (fun hmem => hbefore (List.mem_cons_of_mem c hmem))
        (fun hmem => hbefore' (List.mem_cons_of_mem c hmem)) hrest
      exact ⟨rfl, hafter⟩

/-- Words that end at the first terminator. -/
theorem terminated {terminator : α} (hinjective : Function.Injective code)
    (hterminator : ∀ a, terminator ∉ code a) : SelfDelimiting fun a => code a ++ [terminator] := by
  intro a b rest rest' hab
  rw [List.append_assoc, List.append_assoc] at hab
  obtain ⟨hword, hrest⟩ := append_separator_inj (hterminator a) (hterminator b) hab
  exact ⟨hinjective hword, hrest⟩

/-! ## Lists -/

/-- A sequence of words determines what was written, if no word is empty. -/
theorem flatMap_injective (h : SelfDelimiting code) (hne : ∀ a, code a ≠ []) :
    Function.Injective fun values : List β => values.flatMap code := by
  intro values
  induction values with
  | nil =>
    intro values' heq
    cases values' with
    | nil => rfl
    | cons b values' => exact absurd (List.append_eq_nil_iff.mp heq.symm).1 (hne b)
  | cons a values ih =>
    intro values' heq
    cases values' with
    | nil => exact absurd (List.append_eq_nil_iff.mp heq).1 (hne a)
    | cons b values' =>
      obtain ⟨rfl, hrest⟩ := h heq
      rw [ih hrest]

/-- A list between its elements' words and a closing symbol with which no word begins. The closing
symbol tells that no further word comes, and the words tell where each of them ends. -/
theorem closed {closing : α} (h : SelfDelimiting code)
    (hhead : ∀ a, ∃ s word, code a = s :: word ∧ s ≠ closing) :
    SelfDelimiting fun values : List β => values.flatMap code ++ [closing] := by
  intro values
  induction values with
  -- The first list is empty: the second one begins with the closing symbol, so it is empty too.
  | nil =>
    intro values' rest rest' heq
    cases values' with
    | nil => exact ⟨rfl, (List.cons.inj heq).2⟩
    | cons b values' =>
      obtain ⟨s, word, hword, hs⟩ := hhead b
      dsimp only at heq
      rw [List.flatMap_cons, hword] at heq
      exact absurd (List.cons.inj heq).1.symm hs
  -- Both begin with a word, and the words are the same for they delimit themselves.
  | cons a values ih =>
    intro values' rest rest' heq
    cases values' with
    | nil =>
      obtain ⟨s, word, hword, hs⟩ := hhead a
      dsimp only at heq
      rw [List.flatMap_cons, hword] at heq
      exact absurd (List.cons.inj heq).1 hs
    | cons b values' =>
      dsimp only at heq
      rw [List.flatMap_cons, List.flatMap_cons, List.append_assoc, List.append_assoc,
        List.append_assoc, List.append_assoc] at heq
      obtain ⟨rfl, htail⟩ := h heq
      rw [← List.append_assoc, ← List.append_assoc] at htail
      obtain ⟨rfl, hrest⟩ := ih htail
      exact ⟨rfl, hrest⟩

/-! ## Length framing -/

/-- A text with its length and a separator before it. What follows the separator may be anything,
numerals and separators included. -/
def frame (numeral : ℕ → List α) (separator : α) (text : List α) : List α :=
  numeral text.length ++ separator :: text

/-- A framed text ends where its length says. -/
theorem framed {numeral : ℕ → List α} {separator : α} (hinjective : Function.Injective numeral)
    (hseparator : ∀ n, separator ∉ numeral n) : SelfDelimiting (frame numeral separator) := by
  intro text text' rest rest' h
  rw [frame, frame, List.append_assoc, List.append_assoc, List.cons_append, List.cons_append] at h
  obtain ⟨hnumeral, hafter⟩ := append_separator_inj (hseparator _) (hseparator _) h
  exact List.append_inj hafter (hinjective hnumeral)

/-- A framed text is not empty. -/
theorem frame_ne_nil (numeral : ℕ → List α) (separator : α) (text : List α) :
    frame numeral separator text ≠ [] := by
  simp [frame]

end SelfDelimiting
