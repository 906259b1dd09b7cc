import Mathlib
import Yuance.Lib.Bytes

/-!
# Yuance.Lib.Framing

Byte strings that are written one after the other, each behind its length, and what they are read
as again: the strings themselves and their number.

* `framed`: the strings with their lengths in `w` bytes.
* `framed_injective`: strings that fit are told by what is written of them.
* `labelled_inj`: the same of a label that ends with a zero byte and what stands behind it.
-/

namespace Lib

section Framing

variable {w : Nat} {fields others : List Bytes} {field other rest rest' : Bytes}

/-- Each field behind its length. -/
def framed (w : Nat) (fields : List Bytes) : Bytes :=
  fields.flatMap fun field => toBE w field.length ++ field

/-- The lengths that `w` bytes have room for. -/
def FieldsFit (w : Nat) (fields : List Bytes) : Prop := ∀ field ∈ fields, field.length < 256 ^ w

theorem framed_cons (w : Nat) (field : Bytes) (fields : List Bytes) :
    framed w (field :: fields) = toBE w field.length ++ (field ++ framed w fields) := by
  unfold framed
  rw [List.flatMap_cons, List.append_assoc]

theorem toBE_inj {n m : Nat} (hn : n < 256 ^ w) (hm : m < 256 ^ w) (h : toBE w n = toBE w m) :
    n = m := by
  rw [← ofBE_toBE_of_lt hn, h, ofBE_toBE_of_lt hm]

/-- The first field is told by its length, and what stands behind it is left. -/
theorem framed_head_inj (hfield : field.length < 256 ^ w) (hother : other.length < 256 ^ w)
    (h : toBE w field.length ++ (field ++ rest) = toBE w other.length ++ (other ++ rest')) :
    field = other ∧ rest = rest' := by
  have hwidth : (toBE w field.length).length = (toBE w other.length).length := by
    rw [toBE_length, toBE_length]
  obtain ⟨hlengths, hbehind⟩ := List.append_inj h hwidth
  exact List.append_inj hbehind (toBE_inj hfield hother hlengths)

theorem framed_cons_ne_nil (hw : 0 < w) : framed w (field :: fields) ≠ [] := by
  intro h
  have hlength := congrArg List.length h
  rw [framed_cons, List.length_append, toBE_length, List.length_nil] at hlength
  omega

/-- Fields are told by what is written of them, whatever bytes are in them. -/
theorem framed_injective (hw : 0 < w) (hfields : FieldsFit w fields) (hothers : FieldsFit w others)
    (h : framed w fields = framed w others) : fields = others := by
  induction fields generalizing others with
  | nil =>
    cases others with
    | nil => rfl
    | cons other others => exact absurd h.symm (framed_cons_ne_nil hw)
  | cons field fields ih =>
    cases others with
    | nil => exact absurd h (framed_cons_ne_nil hw)
    | cons other others =>
      rw [framed_cons, framed_cons] at h
      obtain ⟨hhead, hrest⟩ := framed_head_inj (hfields field List.mem_cons_self)
        (hothers other List.mem_cons_self) h
      rw [hhead, ih (fun f hf => hfields f (List.mem_cons_of_mem _ hf))
        (fun f hf => hothers f (List.mem_cons_of_mem _ hf)) hrest]

/-- A label without a zero byte ends at the first one. -/
theorem labelled_inj {label label' : Bytes} (hlabel : 0 ∉ label) (hlabel' : 0 ∉ label')
    (h : label ++ 0 :: rest = label' ++ 0 :: rest') : label = label' ∧ rest = rest' := by
  induction label generalizing label' with
  | nil =>
    cases label' with
    | nil => exact ⟨rfl, (List.cons.inj h).2⟩
    | cons b label' =>
      have hzero : 0 = b := (List.cons.inj h).1
      exact absurd (hzero ▸ List.mem_cons_self) hlabel'
  | cons b label ih =>
    cases label' with
    | nil =>
      have hzero : b = 0 := (List.cons.inj h).1
      exact absurd (hzero ▸ List.mem_cons_self) hlabel
    | cons b' label' =>
      obtain ⟨hhead, htail⟩ := List.cons.inj h
      obtain ⟨hsame, hrest⟩ := ih (fun hmem => hlabel (List.mem_cons_of_mem _ hmem))
        (fun hmem => hlabel' (List.mem_cons_of_mem _ hmem)) htail
      exact ⟨congrArg₂ List.cons hhead hsame, hrest⟩

end Framing

end Lib
