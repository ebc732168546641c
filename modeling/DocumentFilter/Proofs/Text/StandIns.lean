import DocumentFilter.Text.StandIns
import Mathlib.Data.Char
import Mathlib.Data.Finset.Sort

/-!
# Stand-ins that a text does not hold

There are 64 times as many characters for private use as there are halves. So a text that leaves
one in 64 of them has a choice of stand-ins that keeps away from it
(`DocumentFilter.StandIns.exists_avoiding`), and what is said of every choice can be read with this
one: there, a character that stands in for a half comes from nothing but an escape that names the
half.
-/

namespace DocumentFilter.StandIns

/-! ### Any characters -/

section Embedding

variable (f : Fin 0x800 ↪ Char) {c : Char}

/-- The half that a character stands in for, if characters that differ stand in for all of them in
order. -/
def halfOf? (c : Char) : Option Nat :=
  ((List.finRange 0x800).find? fun i => f i = c).map fun i => 0xD800 + i.val

theorem find?_embedding_eq_some_iff {i : Fin 0x800} :
    (List.finRange 0x800).find? (fun j => f j = c) = some i ↔ f i = c := by
  constructor
  · intro found
    simpa using List.find?_some found
  · rintro rfl
    obtain ⟨j, found⟩ : ∃ j, (List.finRange 0x800).find? (fun j => f j = f i) = some j := by
      rw [← Option.isSome_iff_exists, List.find?_isSome]
      exact ⟨i, List.mem_finRange i, decide_eq_true rfl⟩
    have same : f j = f i := by simpa using List.find?_some found
    rw [found, f.injective same]

theorem halfOf?_eq_some_iff {n : Nat} :
    halfOf? f c = some n ↔ Text.isHalf n ∧ f (Fin.ofNat 0x800 (n - 0xD800)) = c := by
  simp only [halfOf?, Text.isHalf, Bool.and_eq_true, decide_eq_true_eq, Option.map_eq_some_iff,
    find?_embedding_eq_some_iff]
  constructor
  · rintro ⟨i, rfl, rfl⟩
    have same : Fin.ofNat 0x800 (0xD800 + i.val - 0xD800) = i := by
      rw [Nat.add_sub_cancel_left]
      exact Fin.ext (Nat.mod_eq_of_lt i.isLt)
    exact ⟨⟨Nat.le_add_right _ _, by omega⟩, congrArg f same⟩
  · rintro ⟨half, rfl⟩
    refine ⟨_, rfl, ?_⟩
    have small : n - 0xD800 < 0x800 := by omega
    rw [Fin.val_ofNat, Nat.mod_eq_of_lt small]
    omega

/-- Characters that differ stand in for the halves in order. -/
@[reducible]
def ofEmbedding (isPrivate : ∀ i, Text.isPrivate (f i) = true) : StandIns where
  char n := f (Fin.ofNat 0x800 (n - 0xD800))
  half? := halfOf? f
  half?_eq_some_iff := halfOf?_eq_some_iff f
  isPrivate_char _ := isPrivate _

end Embedding

/-- The code points for private use are those of characters. -/
theorem toNat_ofNat_private (i : Fin 0x20000) :
    (Char.ofNat (0xF0000 + i.val)).toNat = 0xF0000 + i.val := by
  have valid : (0xF0000 + i.val).isValidChar := .inr ⟨by omega, by omega⟩
  rw [Char.ofNat, dif_pos valid]
  rfl

/-- The characters for private use, in order. -/
def privateUse : Fin 0x20000 ↪ Char where
  toFun i := Char.ofNat (0xF0000 + i.val)
  inj' i j same := by
    have same := congrArg Char.toNat same
    rw [toNat_ofNat_private, toNat_ofNat_private] at same
    exact Fin.ext (Nat.add_left_cancel same)

/-- **Stand-ins that a text does not hold**, if it leaves one in 64 of the characters for private
use. -/
theorem exists_avoiding (cs : List Char)
    (few : (cs.filter Text.isPrivate).dedup.length ≤ 0x1F800) :
    ∃ standIns : StandIns, ∀ c ∈ cs, standIns.half? c = none := by
  -- what the text holds is taken away from all, and enough is left for the halves
  let held : Finset Char := (cs.filter Text.isPrivate).toFinset
  let all : Finset Char := Finset.univ.map privateUse
  have left : 0x800 ≤ (all \ held).card := by
    have size : all.card = 0x20000 := by rw [Finset.card_map, Finset.card_univ, Fintype.card_fin]
    have least := Finset.le_card_sdiff held all
    rw [size, List.card_toFinset] at least
    omega
  let f : Fin 0x800 ↪ Char := ((all \ held).orderEmbOfCardLe left).toEmbedding
  have from_left : ∀ i, f i ∈ all ∧ f i ∉ held := fun i =>
    Finset.mem_sdiff.1 (Finset.orderEmbOfCardLe_mem _ left i)
  have isPrivate : ∀ i, Text.isPrivate (f i) = true := by
    intro i
    obtain ⟨k, -, same⟩ := Finset.mem_map.1 (from_left i).1
    rw [← same, Text.isPrivate, show (privateUse k).toNat = _ from toNat_ofNat_private k]
    exact decide_eq_true (Nat.le_add_right _ _)
  refine ⟨ofEmbedding f isPrivate, fun c mem => ?_⟩
  refine Option.eq_none_iff_forall_ne_some.2 fun n found => ?_
  obtain ⟨-, rfl⟩ := (halfOf?_eq_some_iff f).1 found
  exact (from_left _).2 (List.mem_toFinset.2 (List.mem_filter.2 ⟨mem, isPrivate _⟩))

end DocumentFilter.StandIns
