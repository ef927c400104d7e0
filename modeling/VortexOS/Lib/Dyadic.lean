/-
VortexOS.Lib.Dyadic — aligned power-of-two blocks and the tilings they
make.

Two aligned blocks are either disjoint or nested (`Block.cells_subset`),
because membership in an aligned block is a statement about a quotient
(`Block.mem_cells_iff_div`). `Tiles B S` says the blocks of `B` partition
the cells of `S`; the moves of a buddy system are `Tiles.split` and
`Tiles.merge`.

A tiling is `Coalesced` up to order `N` when it holds no two halves of one
block of order at most `N`. A set of cells has at most ONE coalesced tiling
(`Tiles.coalesced_unique`), whatever sequence of splits and merges led to
it.
-/
import Mathlib

namespace VortexOS.Lib

/-- `2 ^ order` consecutive cells starting at `base`. -/
structure Block where
  order : Nat
  base : Nat
  deriving DecidableEq, Repr

namespace Block

def size (b : Block) : Nat := 2 ^ b.order

/-- The block starts at a multiple of its own size. -/
def Aligned (b : Block) : Prop := 2 ^ b.order ∣ b.base

def cells (b : Block) : Set Nat := {x | b.base ≤ x ∧ x < b.base + 2 ^ b.order}

variable {b c : Block} {k p x : Nat}

lemma mem_cells : x ∈ b.cells ↔ b.base ≤ x ∧ x < b.base + 2 ^ b.order := Iff.rfl

lemma base_mem_cells (b : Block) : b.base ∈ b.cells :=
  ⟨Nat.le_refl _, Nat.lt_add_of_pos_right (Nat.two_pow_pos _)⟩

lemma mem_cells_iff_div (hb : b.Aligned) :
    x ∈ b.cells ↔ x / 2 ^ b.order = b.base / 2 ^ b.order := by
  obtain ⟨m, hm⟩ := hb
  have hpos : 0 < 2 ^ b.order := Nat.two_pow_pos _
  rw [mem_cells, hm, Nat.mul_div_cancel_left _ hpos, Nat.div_eq_iff hpos]
  constructor
  · rintro ⟨h1, h2⟩
    exact ⟨by rw [Nat.mul_comm]; exact h1, by rw [Nat.mul_comm m]; omega⟩
  · rintro ⟨h1, h2⟩
    rw [Nat.mul_comm m] at h1 h2
    exact ⟨h1, by omega⟩

lemma cells_subset (hb : b.Aligned) (hc : c.Aligned) (hle : b.order ≤ c.order) (hxb : x ∈ b.cells)
    (hxc : x ∈ c.cells) : b.cells ⊆ c.cells := by
  intro y hy
  rw [mem_cells_iff_div hb] at hy hxb
  rw [mem_cells_iff_div hc] at hxc ⊢
  obtain ⟨d, hd⟩ := Nat.exists_eq_add_of_le hle
  have hdiv : ∀ z, z / 2 ^ c.order = z / 2 ^ b.order / 2 ^ d := by
    intro z
    rw [Nat.div_div_eq_div_mul, ← pow_add, hd]
  rw [hdiv y, hy, ← hxb, ← hdiv x, hxc]

lemma eq_of_order_eq (hb : b.Aligned) (hc : c.Aligned) (he : b.order = c.order) (hxb : x ∈ b.cells)
    (hxc : x ∈ c.cells) : b = c := by
  have h1 := cells_subset hb hc he.le hxb hxc (base_mem_cells b)
  have h2 := cells_subset hc hb he.ge hxc hxb (base_mem_cells c)
  have hbase : b.base = c.base := Nat.le_antisymm h2.1 h1.1
  cases b; cases c
  simp_all

lemma order_le_of_subset (h : b.cells ⊆ c.cells) : b.order ≤ c.order := by
  have hlo : c.base ≤ b.base := (h (base_mem_cells b)).1
  have hhi : b.base + 2 ^ b.order - 1 < c.base + 2 ^ c.order := by
    refine (h ⟨?_, ?_⟩).2 <;> have := Nat.two_pow_pos b.order <;> omega
  have hpos := Nat.two_pow_pos b.order
  exact (Nat.pow_le_pow_iff_right (a := 2) (by omega)).mp (by omega)

/-! ## Halves -/

lemma mem_cells_succ : x ∈ cells ⟨k + 1, p⟩ ↔ x ∈ cells ⟨k, p⟩ ∨ x ∈ cells ⟨k, p + 2 ^ k⟩ := by
  simp only [mem_cells, pow_succ]
  omega

lemma not_mem_both_halves (h1 : x ∈ cells ⟨k, p⟩) (h2 : x ∈ cells ⟨k, p + 2 ^ k⟩) : False := by
  have ha := h1.2
  have hb := h2.1
  simp only at ha hb
  omega

lemma aligned_low (h : Aligned ⟨k + 1, p⟩) : Aligned ⟨k, p⟩ :=
  (pow_dvd_pow 2 (Nat.le_succ k)).trans h

lemma aligned_high (h : Aligned ⟨k + 1, p⟩) : Aligned ⟨k, p + 2 ^ k⟩ :=
  Nat.dvd_add (aligned_low h) (Nat.dvd_refl _)

/-! ## Buddies

Flipping bit `k` of an aligned base moves between the two halves of the
block of order `k + 1` that contains it. -/

lemma xor_two_pow (k q : Nat) : (2 ^ k * q) ^^^ 2 ^ k = 2 ^ k * (q ^^^ 1) := by
  have h := @Nat.shiftLeft_xor_distrib k q 1
  simp only [Nat.shiftLeft_eq, one_mul] at h
  rw [Nat.mul_comm, Nat.mul_comm (2 ^ k), h]

lemma xor_of_low (h : 2 ^ (k + 1) ∣ p) : p ^^^ 2 ^ k = p + 2 ^ k := by
  obtain ⟨q, rfl⟩ := h
  rw [pow_succ, Nat.mul_assoc, xor_two_pow, Nat.xor_one_of_even (by simp)]
  ring

lemma xor_of_high (h : 2 ^ k ∣ p) (hn : ¬ 2 ^ (k + 1) ∣ p) :
    (p ^^^ 2 ^ k) + 2 ^ k = p ∧ 2 ^ (k + 1) ∣ (p ^^^ 2 ^ k) := by
  obtain ⟨q, rfl⟩ := h
  have hodd : Odd q := by
    rw [← Nat.not_even_iff_odd]
    rintro ⟨r, hr⟩
    exact hn ⟨r, by rw [hr, pow_succ]; ring⟩
  obtain ⟨r, rfl⟩ := hodd
  rw [xor_two_pow, Nat.xor_one_of_odd ⟨r, rfl⟩, Nat.add_sub_cancel]
  exact ⟨by ring, ⟨r, by ring⟩⟩

lemma not_dvd_high (h : 2 ^ (k + 1) ∣ p) : ¬ 2 ^ (k + 1) ∣ p + 2 ^ k := by
  intro h2
  have hle := Nat.le_of_dvd (Nat.two_pow_pos k) ((Nat.dvd_add_right h).mp h2)
  have hpos := Nat.two_pow_pos k
  rw [pow_succ] at hle
  omega

lemma xor_add_two_pow (h : 2 ^ (k + 1) ∣ p) : (p + 2 ^ k) ^^^ 2 ^ k = p :=
  Nat.add_right_cancel (xor_of_high (aligned_high h) (not_dvd_high h)).1

end Block

/-! ## Tilings -/

/-- The blocks of `B` partition the cells of `S`. -/
structure Tiles (B : Set Block) (S : Set Nat) : Prop where
  aligned : ∀ b ∈ B, b.Aligned
  unique : ∀ b ∈ B, ∀ c ∈ B, ∀ x, x ∈ b.cells → x ∈ c.cells → b = c
  cover : ∀ x, x ∈ S ↔ ∃ b ∈ B, x ∈ b.cells

namespace Tiles

variable {B B' : Set Block} {S : Set Nat} {b c : Block} {k p : Nat}

section

variable (h : Tiles B S)
include h

lemma congr (hB : ∀ b, b ∈ B' ↔ b ∈ B) : Tiles B' S := by
  rwa [show B' = B from Set.ext hB]

lemma cells_subset (hb : b ∈ B) : b.cells ⊆ S :=
  fun x hx => (h.cover x).mpr ⟨b, hb, hx⟩

lemma disjoint (hb : b ∈ B) (hc : c ∈ B) (hne : b ≠ c) : Disjoint b.cells c.cells := by
  rw [Set.disjoint_left]
  intro x hxb hxc
  exact hne (h.unique b hb c hc x hxb hxc)

lemma eq_of_base_eq (hb : b ∈ B) (hc : c ∈ B) (he : b.base = c.base) : b = c :=
  h.unique b hb c hc b.base b.base_mem_cells (he ▸ c.base_mem_cells)

lemma split (hb : ⟨k + 1, p⟩ ∈ B)
    (hB : ∀ b, b ∈ B' ↔ b = ⟨k, p⟩ ∨ b = ⟨k, p + 2 ^ k⟩ ∨ (b ∈ B ∧ b ≠ ⟨k + 1, p⟩)) :
    Tiles B' S := by
  have hal := h.aligned _ hb
  -- a cell of either half lies in the block that was split
  have hhalf : ∀ (c : Block) (x : Nat), c = ⟨k, p⟩ ∨ c = ⟨k, p + 2 ^ k⟩ → x ∈ c.cells →
      x ∈ Block.cells ⟨k + 1, p⟩ := by
    rintro c x (rfl | rfl) hx
    · exact Block.mem_cells_succ.mpr (Or.inl hx)
    · exact Block.mem_cells_succ.mpr (Or.inr hx)
  refine ⟨?_, ?_, ?_⟩
  · intro b hb'
    rcases (hB b).mp hb' with rfl | rfl | ⟨hb', _⟩
    · exact Block.aligned_low hal
    · exact Block.aligned_high hal
    · exact h.aligned b hb'
  · intro b hb' c hc' x hxb hxc
    rcases (hB b).mp hb' with hb1 | hb1 | ⟨hb1, hb2⟩ <;>
      rcases (hB c).mp hc' with hc1 | hc1 | ⟨hc1, hc2⟩
    · exact hb1.trans hc1.symm
    · subst hb1 hc1; exact (Block.not_mem_both_halves hxb hxc).elim
    · exact absurd (h.unique _ hc1 _ hb x hxc (hhalf b x (Or.inl hb1) hxb)) hc2
    · subst hb1 hc1; exact (Block.not_mem_both_halves hxc hxb).elim
    · exact hb1.trans hc1.symm
    · exact absurd (h.unique _ hc1 _ hb x hxc (hhalf b x (Or.inr hb1) hxb)) hc2
    · exact absurd (h.unique _ hb1 _ hb x hxb (hhalf c x (Or.inl hc1) hxc)) hb2
    · exact absurd (h.unique _ hb1 _ hb x hxb (hhalf c x (Or.inr hc1) hxc)) hb2
    · exact h.unique b hb1 c hc1 x hxb hxc
  · intro x
    rw [h.cover x]
    constructor
    · rintro ⟨b, hb', hx⟩
      by_cases he : b = ⟨k + 1, p⟩
      · subst he
        rcases Block.mem_cells_succ.mp hx with h1 | h1
        · exact ⟨_, (hB _).mpr (Or.inl rfl), h1⟩
        · exact ⟨_, (hB _).mpr (Or.inr (Or.inl rfl)), h1⟩
      · exact ⟨b, (hB b).mpr (Or.inr (Or.inr ⟨hb', he⟩)), hx⟩
    · rintro ⟨b, hb', hx⟩
      rcases (hB b).mp hb' with h1 | h1 | ⟨h1, _⟩
      · exact ⟨_, hb, hhalf b x (Or.inl h1) hx⟩
      · exact ⟨_, hb, hhalf b x (Or.inr h1) hx⟩
      · exact ⟨b, h1, hx⟩

lemma merge (hal : 2 ^ (k + 1) ∣ p) (hlo : ⟨k, p⟩ ∈ B) (hhi : ⟨k, p + 2 ^ k⟩ ∈ B)
    (hB : ∀ b, b ∈ B' ↔ b = ⟨k + 1, p⟩ ∨ (b ∈ B ∧ b ≠ ⟨k, p⟩ ∧ b ≠ ⟨k, p + 2 ^ k⟩)) :
    Tiles B' S := by
  -- an old block other than the halves has no cell in the new one
  have hout : ∀ c ∈ B, c ≠ ⟨k, p⟩ → c ≠ ⟨k, p + 2 ^ k⟩ → ∀ x, x ∈ c.cells →
      x ∉ Block.cells ⟨k + 1, p⟩ := by
    intro c hc h1 h2 x hx hx'
    rcases Block.mem_cells_succ.mp hx' with h3 | h3
    · exact h1 (h.unique c hc _ hlo x hx h3)
    · exact h2 (h.unique c hc _ hhi x hx h3)
  refine ⟨?_, ?_, ?_⟩
  · intro b hb
    rcases (hB b).mp hb with rfl | ⟨hb', _⟩
    · exact hal
    · exact h.aligned b hb'
  · intro b hb c hc x hxb hxc
    rcases (hB b).mp hb with rfl | ⟨hb1, hb2, hb3⟩ <;>
      rcases (hB c).mp hc with rfl | ⟨hc1, hc2, hc3⟩
    · rfl
    · exact absurd hxb (hout c hc1 hc2 hc3 x hxc)
    · exact absurd hxc (hout b hb1 hb2 hb3 x hxb)
    · exact h.unique b hb1 c hc1 x hxb hxc
  · intro x
    rw [h.cover x]
    constructor
    · rintro ⟨b, hb, hx⟩
      by_cases h1 : b = ⟨k, p⟩
      · subst h1
        exact ⟨_, (hB _).mpr (Or.inl rfl), Block.mem_cells_succ.mpr (Or.inl hx)⟩
      by_cases h2 : b = ⟨k, p + 2 ^ k⟩
      · subst h2
        exact ⟨_, (hB _).mpr (Or.inl rfl), Block.mem_cells_succ.mpr (Or.inr hx)⟩
      exact ⟨b, (hB b).mpr (Or.inr ⟨hb, h1, h2⟩), hx⟩
    · rintro ⟨b, hb, hx⟩
      rcases (hB b).mp hb with rfl | ⟨hb1, _⟩
      · rcases Block.mem_cells_succ.mp hx with h3 | h3
        · exact ⟨_, hlo, h3⟩
        · exact ⟨_, hhi, h3⟩
      · exact ⟨b, hb1, hx⟩

lemma grow (hal : b.Aligned) (hnew : ∀ x ∈ b.cells, x ∉ S) (hB : ∀ c, c ∈ B' ↔ c = b ∨ c ∈ B) :
    Tiles B' (S ∪ b.cells) := by
  refine ⟨fun c hc => ?_, fun c hc d hd x hxc hxd => ?_, fun x => ?_⟩
  · rcases (hB c).mp hc with rfl | hc
    · exact hal
    · exact h.aligned c hc
  · rcases (hB c).mp hc with hcb | hc <;> rcases (hB d).mp hd with hdb | hd
    · exact hcb.trans hdb.symm
    · exact absurd (h.cells_subset hd hxd) (hnew x (hcb ▸ hxc))
    · exact absurd (h.cells_subset hc hxc) (hnew x (hdb ▸ hxd))
    · exact h.unique c hc d hd x hxc hxd
  · rw [Set.mem_union, h.cover x]
    constructor
    · rintro (⟨c, hc, hx⟩ | hx)
      · exact ⟨c, (hB c).mpr (Or.inr hc), hx⟩
      · exact ⟨b, (hB b).mpr (Or.inl rfl), hx⟩
    · rintro ⟨c, hc, hx⟩
      rcases (hB c).mp hc with rfl | hc
      · exact Or.inr hx
      · exact Or.inl ⟨c, hc, hx⟩

end

end Tiles

/-! ## Coalesced tilings -/

/-- No two halves of one block of order at most `N` both stand in `B`. -/
def Coalesced (N : Nat) (B : Set Block) : Prop :=
  ∀ k p, k < N → 2 ^ (k + 1) ∣ p → ⟨k, p⟩ ∈ B → ⟨k, p + 2 ^ k⟩ ∉ B

lemma Coalesced.insert {N : Nat} {B : Set Block} {k p : Nat} (h : Coalesced N B)
    (hnb : k < N → (⟨k, p ^^^ 2 ^ k⟩ : Block) ∉ B) : Coalesced N (insert ⟨k, p⟩ B) := by
  intro j q hj hq hlo hhi
  rcases hlo with hlo | hlo <;> rcases hhi with hhi | hhi
  · have h1 : q = p := congrArg Block.base hlo
    have h2 : q + 2 ^ j = p := congrArg Block.base hhi
    have := Nat.two_pow_pos j
    omega
  · obtain ⟨hjk, hqp⟩ : j = k ∧ q = p := by simpa using hlo
    rw [hjk, hqp] at hq hhi
    exact hnb (hjk ▸ hj) (by rwa [Block.xor_of_low hq])
  · obtain ⟨hjk, hqp⟩ : j = k ∧ q + 2 ^ j = p := by simpa using hhi
    rw [← hjk, ← hqp, Block.xor_add_two_pow hq] at hnb
    exact hnb hj hlo
  · exact h j q hj hq hlo hhi

namespace Tiles

variable {B B' : Set Block} {S : Set Nat} {N : Nat}

/-- In a coalesced tiling every aligned block inside the tiled set lies in
one of the tiles. The induction is on the order of that block: its two
halves lie in tiles, and if these are the halves themselves the tiling is
not coalesced. -/
lemma exists_tile_of_coalesced (h : Tiles B S) (hco : Coalesced N B) : ∀ (k p : Nat), k ≤ N →
    Block.Aligned ⟨k, p⟩ → Block.cells ⟨k, p⟩ ⊆ S → ∃ b ∈ B, Block.cells ⟨k, p⟩ ⊆ b.cells := by
  intro k
  induction k with
  | zero =>
    intro p _ _ hS
    obtain ⟨b, hb, hpb⟩ := (h.cover p).mp (hS (Block.base_mem_cells ⟨0, p⟩))
    refine ⟨b, hb, fun x hx => ?_⟩
    have hxp : x = p := by
      have h1 := hx.1
      have h2 := hx.2
      simp only [pow_zero] at h1 h2
      omega
    exact hxp ▸ hpb
  | succ k ih =>
    intro p hk hal hS
    have halo := Block.aligned_low hal
    have hahi := Block.aligned_high hal
    obtain ⟨b, hb, hbs⟩ := ih p (by omega) halo
      fun x hx => hS (Block.mem_cells_succ.mpr (Or.inl hx))
    obtain ⟨c, hc, hcs⟩ := ih (p + 2 ^ k) (by omega) hahi
      fun x hx => hS (Block.mem_cells_succ.mpr (Or.inr hx))
    have hpb : p ∈ b.cells := hbs (Block.base_mem_cells ⟨k, p⟩)
    have hqc : p + 2 ^ k ∈ c.cells := hcs (Block.base_mem_cells ⟨k, p + 2 ^ k⟩)
    have hp : p ∈ Block.cells ⟨k + 1, p⟩ := Block.base_mem_cells ⟨k + 1, p⟩
    have hq : p + 2 ^ k ∈ Block.cells ⟨k + 1, p⟩ :=
      Block.mem_cells_succ.mpr (Or.inr (Block.base_mem_cells ⟨k, p + 2 ^ k⟩))
    by_cases hbk : k + 1 ≤ b.order
    · exact ⟨b, hb, Block.cells_subset hal (h.aligned b hb) hbk hp hpb⟩
    by_cases hck : k + 1 ≤ c.order
    · exact ⟨c, hc, Block.cells_subset hal (h.aligned c hc) hck hq hqc⟩
    have hbo : b.order = k := by
      have h1 : k ≤ b.order := Block.order_le_of_subset hbs
      omega
    have hcO : c.order = k := by
      have h1 : k ≤ c.order := Block.order_le_of_subset hcs
      omega
    have hbe : b = ⟨k, p⟩ :=
      Block.eq_of_order_eq (h.aligned b hb) halo hbo hpb (Block.base_mem_cells ⟨k, p⟩)
    have hce : c = ⟨k, p + 2 ^ k⟩ :=
      Block.eq_of_order_eq (h.aligned c hc) hahi hcO hqc
        (Block.base_mem_cells ⟨k, p + 2 ^ k⟩)
    exact absurd (hce ▸ hc) (hco k p (by omega) hal (hbe ▸ hb))

lemma coalesced_subset (h : Tiles B S) (h' : Tiles B' S) (hco : Coalesced N B)
    (hco' : Coalesced N B') (hN : ∀ b ∈ B, b.order ≤ N) (hN' : ∀ b ∈ B', b.order ≤ N) : B ⊆ B' := by
  rintro ⟨k, p⟩ hb
  obtain ⟨⟨k', p'⟩, hb', hsub⟩ := h'.exists_tile_of_coalesced hco' k p (hN _ hb)
    (h.aligned _ hb) (h.cells_subset hb)
  obtain ⟨c, hc, hsub'⟩ := h.exists_tile_of_coalesced hco k' p' (hN' _ hb')
    (h'.aligned _ hb') (h'.cells_subset hb')
  have hp : p ∈ Block.cells ⟨k, p⟩ := Block.base_mem_cells ⟨k, p⟩
  have hcb : c = ⟨k, p⟩ := h.unique c hc _ hb p (hsub' (hsub hp)) hp
  subst hcb
  have hord : k = k' :=
    Nat.le_antisymm (Block.order_le_of_subset hsub) (Block.order_le_of_subset hsub')
  rw [Block.eq_of_order_eq (h.aligned _ hb) (h'.aligned _ hb') hord hp (hsub hp)]
  exact hb'

/-- **A set of cells has at most one coalesced tiling.** -/
lemma coalesced_unique (h : Tiles B S) (h' : Tiles B' S) (hco : Coalesced N B)
    (hco' : Coalesced N B') (hN : ∀ b ∈ B, b.order ≤ N) (hN' : ∀ b ∈ B', b.order ≤ N) : B = B' :=
  Set.Subset.antisymm (h.coalesced_subset h' hco hco' hN hN')
    (h'.coalesced_subset h hco' hco hN' hN)

end Tiles

end VortexOS.Lib
