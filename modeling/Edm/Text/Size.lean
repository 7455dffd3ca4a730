/-!
This module contains the size of texts in bytes, which is that of their characters.
-/

namespace Edm.Text

def utf8Size (cs : List Char) : Nat := cs.foldl (fun n c => n + c.utf8Size) 0

theorem foldl_utf8Size (cs : List Char) (n : Nat)
    : cs.foldl (fun n c => n + c.utf8Size) n = n + utf8Size cs := by
  unfold utf8Size
  induction cs generalizing n with
  | nil => rfl
  | cons c cs ih =>
    rw [List.foldl_cons, List.foldl_cons, ih, ih (0 + c.utf8Size)]
    omega

@[simp]
theorem utf8Size_nil : utf8Size [] = 0 := rfl

@[simp]
theorem utf8Size_cons (c : Char) (cs : List Char)
    : utf8Size (c :: cs) = c.utf8Size + utf8Size cs := by
  rw [← foldl_utf8Size]
  simp [utf8Size]

@[simp]
theorem utf8Size_append (cs ds : List Char)
    : utf8Size (cs ++ ds) = utf8Size cs + utf8Size ds := by
  rw [← foldl_utf8Size]
  simp [utf8Size]

theorem length_le_utf8Size (cs : List Char) : cs.length ≤ utf8Size cs := by
  induction cs with
  | nil => exact Nat.le_refl 0
  | cons c cs ih =>
    have := c.utf8Size_pos
    rw [List.length_cons, utf8Size_cons]
    omega

theorem utf8Size_toList (text : String) : utf8Size text.toList = text.utf8ByteSize := by
  obtain ⟨cs, rfl⟩ : ∃ cs, text = .ofList cs := ⟨text.toList, by simp⟩
  rw [String.toList_ofList]
  induction cs with
  | nil => rfl
  | cons c cs ih =>
    rw [utf8Size_cons, ih, ← String.utf8ByteSize_singleton, ← String.utf8ByteSize_append]
    congr 1
    apply String.toList_inj.mp
    simp

end Edm.Text
