import Mathlib.Algebra.Group.Nat.Defs
import Mathlib.Data.List.Basic

/-! # Length-prefixed frames

    A sequence of blocks of bytes is written as one: each block after its
    length, big endian in a fixed number of bytes.  As long as the lengths
    fit, the bytes determine the blocks.
-/

namespace Framing

/-! ### Numbers -/

/-- Big endian, the last `width` digits to the base 256. -/
def be : Nat → Nat → List UInt8
  | 0, _ => []
  | width + 1, n => be width (n / 256) ++ [UInt8.ofNat n]

@[simp] theorem length_be (width n : Nat) : (be width n).length = width := by
  induction width generalizing n with
  | zero => rfl
  | succ width ih => simp [be, ih]

theorem be_inj {width n m : Nat} (hn : n < 256 ^ width) (hm : m < 256 ^ width)
    (h : be width n = be width m) : n = m := by
  induction width generalizing n m with
  | zero => omega
  | succ width ih =>
    have hdiv : ∀ k, k < 256 ^ (width + 1) → k / 256 < 256 ^ width := by
      intro k hk
      rw [Nat.pow_succ] at hk
      exact Nat.div_lt_of_lt_mul (by omega)
    have hsplit := List.append_inj h (by simp)
    have hhigh := ih (hdiv n hn) (hdiv m hm) hsplit.1
    have hlow := congrArg UInt8.toNat (List.cons.inj hsplit.2).1
    simp only [UInt8.toNat_ofNat'] at hlow
    omega

/-! ### Frames -/

variable {width : Nat} {a b rest rest' : List UInt8}

def frame (width : Nat) (block : List UInt8) : List UInt8 := be width block.length ++ block

def frames (width : Nat) (blocks : List (List UInt8)) : List UInt8 :=
  (blocks.map (frame width)).flatten

@[simp] theorem frames_nil : frames width [] = [] := rfl

@[simp] theorem frames_cons (blocks : List (List UInt8)) :
    frames width (a :: blocks) = frame width a ++ frames width blocks := rfl

/-- The first frame can be told from what follows it. -/
theorem frame_append_inj (ha : a.length < 256 ^ width) (hb : b.length < 256 ^ width)
    (h : frame width a ++ rest = frame width b ++ rest') : a = b ∧ rest = rest' := by
  unfold frame at h
  rw [List.append_assoc, List.append_assoc] at h
  obtain ⟨hfirst, hbody⟩ := List.append_inj h (by simp)
  have hlength : a.length = b.length := be_inj ha hb hfirst
  exact List.append_inj hbody hlength

/-- **Framing is unambiguous**: equal bytes are equal sequences of blocks. -/
theorem frames_inj (hwidth : 0 < width) {blocks blocks' : List (List UInt8)}
    (hblocks : ∀ block ∈ blocks, block.length < 256 ^ width)
    (hblocks' : ∀ block ∈ blocks', block.length < 256 ^ width)
    (h : frames width blocks = frames width blocks') : blocks = blocks' := by
  -- a frame is not empty
  have hframe : ∀ block rest, frame width block ++ rest ≠ [] := by
    intro block rest hnil
    have hlength := congrArg List.length hnil
    simp [frame] at hlength
    omega
  induction blocks generalizing blocks' with
  | nil =>
    cases blocks' with
    | nil => rfl
    | cons b blocks' => exact absurd h.symm (hframe b _)
  | cons a blocks ih =>
    cases blocks' with
    | nil => exact absurd h (hframe a _)
    | cons b blocks' =>
      obtain ⟨ha, htail⟩ := List.forall_mem_cons.mp hblocks
      obtain ⟨hb, htail'⟩ := List.forall_mem_cons.mp hblocks'
      obtain ⟨hsame, hrest⟩ := frame_append_inj ha hb h
      rw [hsame, ih htail htail' hrest]

end Framing
