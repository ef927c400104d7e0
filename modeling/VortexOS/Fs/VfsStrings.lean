/-
VortexOS.Fs.VfsStrings — names and paths as byte strings.

`cstr` is what a `const char*` means: the bytes up to the first zero.
`str_cmp` compares these (`strCmp_eq_zero`) and `str_cpy` copies at most
`max_len - 1` of them (`strCpy_eq`).

`components` is what `resolve_path` cuts a path into. The loop ends a
component after 255 bytes too, so a longer one counts as several. What
matters for paths that are put together is `components_append`: at a slash
the two parts are cut separately.
-/
import VortexOS.Fs.Vfs

namespace VortexOS.Fs

def cstr (s : List Byte) : List Byte := s.takeWhile (· ≠ 0)

@[simp] lemma cstr_nil : cstr [] = [] := rfl

@[simp] lemma cstr_cons (c : Byte) (s : List Byte) :
    cstr (c :: s) = if c = 0 then [] else c :: cstr s := by
  unfold cstr
  rw [List.takeWhile_cons]
  by_cases hc : c = 0
  · rw [if_pos hc, if_neg (by simp [hc])]
  · rw [if_neg hc, if_pos (by simpa using hc)]

lemma cstr_of_not_mem {s : List Byte} (h : 0 ∉ s) : cstr s = s := by
  induction s with
  | nil => rfl
  | cons c s ih =>
    simp only [List.mem_cons, not_or] at h
    rw [cstr_cons, if_neg (Ne.symm h.1), ih h.2]

lemma zero_not_mem_cstr (s : List Byte) : 0 ∉ cstr s := by
  induction s with
  | nil => simp
  | cons c s ih =>
    rw [cstr_cons]
    split
    · simp
    · rename_i hc
      exact fun h => (List.mem_cons.mp h).elim (fun heq => hc heq.symm) ih

lemma toNat_eq_zero_iff (c : Byte) : c.toNat = 0 ↔ c = 0 := by
  rw [← BitVec.toNat_inj]
  rfl

lemma strCmp_eq_zero (a b : List Byte) : strCmp a b = 0 ↔ cstr a = cstr b := by
  induction a generalizing b with
  | nil =>
    cases b with
    | nil => simp [strCmp]
    | cons b bs =>
      have hb := toNat_eq_zero_iff b
      rw [strCmp, cstr_nil, cstr_cons]
      split <;> simp_all
  | cons a as ih =>
    cases b with
    | nil =>
      have ha := toNat_eq_zero_iff a
      rw [strCmp, cstr_nil, cstr_cons]
      split <;> simp_all
    | cons b bs =>
      rw [strCmp, cstr_cons, cstr_cons]
      by_cases hab : a = b
      · subst hab
        by_cases ha : a = 0
        · rw [if_neg (fun h => h.1 ha), if_pos ha, if_pos ha]
          simp
        · rw [if_pos ⟨ha, rfl⟩, if_neg ha, if_neg ha, ih]
          simp
      · have hne : (a.toNat : Int) - b.toNat ≠ 0 := by
          have : a.toNat ≠ b.toNat := fun heq => hab (BitVec.toNat_inj.mp heq)
          omega
        rw [if_neg (fun h => hab h.2)]
        by_cases ha : a = 0 <;> by_cases hb : b = 0 <;> simp_all

lemma strCpy_eq (src : List Byte) (maxLen : Nat) :
    strCpy src maxLen = (cstr src).take (maxLen - 1) := by
  unfold strCpy
  generalize maxLen - 1 = n
  induction src generalizing n with
  | nil => simp [copyLoop, cstr]
  | cons c src ih =>
    cases n with
    | zero => simp [copyLoop]
    | succ n =>
      rw [copyLoop, cstr_cons]
      by_cases hc : c = 0
      · rw [if_neg (not_not.mpr hc), if_pos hc, List.take_nil]
      · rw [if_pos hc, if_neg hc, List.take_succ_cons, ih]

lemma zero_not_mem_strCpy (src : List Byte) (maxLen : Nat) : 0 ∉ strCpy src maxLen := by
  rw [strCpy_eq]
  exact fun h => zero_not_mem_cstr src (List.mem_of_mem_take h)

/-- A name that can be a component of a path. -/
structure IsComponent (c : List Byte) : Prop where
  nonempty : c ≠ []
  noSlash : slash ∉ c
  noZero : 0 ∉ c
  length : c.length ≤ 255

variable {path c : List Byte}

lemma strCpy_component (h : IsComponent c) : strCpy c sizeofName = c := by
  rw [strCpy_eq, cstr_of_not_mem h.noZero]
  exact List.take_of_length_le h.length

/-! ## Components -/

lemma takeComponent_append (n : Nat) (a q : List Byte) :
    takeComponent n (a ++ slash :: q) = takeComponent n a := by
  induction a generalizing n with
  | nil => cases n <;> simp [takeComponent]
  | cons c a ih => cases n <;> simp [takeComponent, ih]

lemma takeComponent_length_le (n : Nat) (a : List Byte) :
    (takeComponent n a).length ≤ a.length := by
  induction a generalizing n with
  | nil => cases n <;> simp [takeComponent]
  | cons c a ih =>
    cases n with
    | zero => simp [takeComponent]
    | succ n =>
      simp only [takeComponent]
      split <;> simp [ih]

lemma takeComponent_eq_take {n : Nat} (hslash : slash ∉ c) (hzero : 0 ∉ c) :
    takeComponent n c = c.take n := by
  induction c generalizing n with
  | nil => cases n <;> rfl
  | cons b c ih =>
    cases n with
    | zero => rfl
    | succ n =>
      simp only [List.mem_cons, not_or] at hslash hzero
      have hb : b ≠ 0 ∧ b ≠ slash := ⟨Ne.symm hzero.1, Ne.symm hslash.1⟩
      rw [takeComponent, if_pos hb, ih hslash.2 hzero.2, List.take_succ_cons]

lemma takeComponent_mem (n : Nat) (path : List Byte) : 0 ∉ takeComponent n path ∧
    slash ∉ takeComponent n path ∧ (takeComponent n path).length ≤ n := by
  induction path generalizing n with
  | nil => cases n <;> simp [takeComponent]
  | cons b path ih =>
    cases n with
    | zero => simp [takeComponent]
    | succ n =>
      obtain ⟨hzero, hslash, hlen⟩ := ih n
      by_cases hb : b ≠ 0 ∧ b ≠ slash
      · rw [takeComponent, if_pos hb, List.mem_cons, List.mem_cons, List.length_cons, not_or,
          not_or]
        exact ⟨⟨Ne.symm hb.1, hzero⟩, ⟨Ne.symm hb.2, hslash⟩, Nat.succ_le_succ hlen⟩
      · rw [takeComponent, if_neg hb]
        simp

/-- The components of a path, in at most `n` rounds of the loop. -/
def componentsLoop : Nat → List Byte → List (List Byte)
  | 0, _ => []
  | n + 1, path =>
    let path := path.dropWhile (· == slash)
    if path.headD 0 = 0 then []
    else
      let component := takeComponent (sizeofName - 1) path
      component :: componentsLoop n (path.drop component.length)

def components (path : List Byte) : List (List Byte) := componentsLoop path.length path

def restOf (path : List Byte) : List Byte :=
  let path := path.dropWhile (· == slash)
  path.drop (takeComponent (sizeofName - 1) path).length

lemma exists_head (h : (path.dropWhile (· == slash)).headD 0 ≠ 0) :
    ∃ c rest, path.dropWhile (· == slash) = c :: rest ∧ c ≠ 0 ∧ c ≠ slash := by
  cases hp : path.dropWhile (· == slash) with
  | nil => simp [hp] at h
  | cons c rest =>
    have hc : c ≠ slash := by
      have := List.head?_dropWhile_not (· == slash) path
      rw [hp] at this
      simpa using this
    rw [hp, List.headD_cons] at h
    exact ⟨c, rest, rfl, h, hc⟩

lemma restOf_length (h : (path.dropWhile (· == slash)).headD 0 ≠ 0) :
    (restOf path).length < path.length := by
  have hle : (path.dropWhile (· == slash)).length ≤ path.length := List.length_dropWhile_le _ _
  obtain ⟨c, rest, hp, h0, hc⟩ := exists_head h
  rw [hp] at hle
  unfold restOf
  simp only [hp, sizeofName, takeComponent, h0, hc, ne_eq, not_false_eq_true, and_self, if_true,
    List.length_cons, List.drop_succ_cons, List.length_drop] at hle ⊢
  omega

lemma componentsLoop_fuel {n m : Nat} (hn : path.length ≤ n) (hm : path.length ≤ m) :
    componentsLoop n path = componentsLoop m path := by
  have hnil : ∀ k, componentsLoop k [] = [] := fun k => by cases k <;> simp [componentsLoop]
  induction n generalizing m path with
  | zero => rw [List.eq_nil_of_length_eq_zero (Nat.le_zero.mp hn), hnil, hnil]
  | succ n ih =>
    cases m with
    | zero => rw [List.eq_nil_of_length_eq_zero (Nat.le_zero.mp hm), hnil, hnil]
    | succ m =>
      simp only [componentsLoop]
      split
      · rfl
      · rename_i hhead
        have hlt := restOf_length hhead
        rw [ih (m := m) (by simp only [restOf] at hlt; omega) (by simp only [restOf] at hlt; omega)]

lemma components_eq (path : List Byte) :
    components path = if (path.dropWhile (· == slash)).headD 0 = 0 then [] else takeComponent
      (sizeofName - 1) (path.dropWhile (· == slash)) :: components (restOf path) := by
  have hfuel : components path = componentsLoop (path.length + 1) path :=
    componentsLoop_fuel (Nat.le_refl _) (Nat.le_succ _)
  rw [hfuel]
  simp only [componentsLoop]
  split
  · rfl
  · rename_i hhead
    have hlt := restOf_length hhead
    rw [components, componentsLoop_fuel (Nat.le_refl _) (Nat.le_of_lt hlt)]
    rfl

lemma dropWhile_slash_append (p q : List Byte) : (p ++ slash :: q).dropWhile (· == slash) =
    if p.dropWhile (· == slash) = [] then q.dropWhile (· == slash)
    else p.dropWhile (· == slash) ++ slash :: q := by
  induction p with
  | nil => simp
  | cons c p ih => by_cases hc : c = slash <;> simp_all

lemma components_append {p : List Byte} (hp : 0 ∉ p) (q : List Byte) :
    components (p ++ slash :: q) = components p ++ components q := by
  induction hlen : p.length using Nat.strongRecOn generalizing p with
  | ind n ih =>
    rw [components_eq, components_eq p, restOf, dropWhile_slash_append]
    by_cases hnil : p.dropWhile (· == slash) = []
    · -- only slashes before the cut
      rw [if_pos hnil, hnil, List.headD_nil, if_pos rfl, List.nil_append, ← restOf, ← components_eq]
    · rw [if_neg hnil]
      obtain ⟨c, rest, hrest⟩ := List.exists_cons_of_ne_nil hnil
      have hmem : ∀ b ∈ p.dropWhile (· == slash), b ∈ p := fun b hb =>
        (List.dropWhile_sublist _).mem hb
      have hc : c ≠ 0 := fun heq => hp (hmem 0 (by rw [hrest, heq]; simp))
      have hhead : (p.dropWhile (· == slash)).headD 0 ≠ 0 := by rw [hrest]; exact hc
      have hhead' : (p.dropWhile (· == slash) ++ slash :: q).headD 0 ≠ 0 := by rw [hrest]; exact hc
      have hlt := restOf_length hhead
      have hzero : 0 ∉ restOf p := fun hin => hp (hmem 0 (List.mem_of_mem_drop hin))
      rw [if_neg hhead, if_neg hhead', takeComponent_append, List.cons_append,
        ← ih _ (hlen ▸ hlt) hzero rfl, restOf,
          List.drop_append_of_le_length (takeComponent_length_le _ _)]

lemma components_slash (path : List Byte) : components (slash :: path) = components path :=
  components_append (p := []) (by simp) path

/-- A name that does not fit is cut. -/
lemma components_name (hne : c ≠ []) (hslash : slash ∉ c) (hzero : 0 ∉ c) :
    components c = c.take 255 :: components (c.drop 255) := by
  obtain ⟨b, rest, rfl⟩ := List.exists_cons_of_ne_nil hne
  have hb : b ≠ slash := fun heq => hslash (by simp [heq])
  have hb0 : b ≠ 0 := fun heq => hzero (by simp [heq])
  have hdrop : (b :: rest).dropWhile (· == slash) = b :: rest := by simp [hb]
  rw [components_eq, restOf, hdrop, List.headD_cons, if_neg hb0, takeComponent_eq_take hslash hzero,
    show sizeofName - 1 = 255 from rfl, List.length_take]
  congr 2
  by_cases hlen : (b :: rest).length ≤ 255
  · rw [Nat.min_eq_right hlen, List.drop_length, List.drop_of_length_le hlen]
  · rw [Nat.min_eq_left (Nat.le_of_not_le hlen)]

lemma components_component (h : IsComponent c) : components c = [c] := by
  rw [components_name h.nonempty h.noSlash h.noZero, List.take_of_length_le h.length,
    List.drop_of_length_le h.length]
  rfl

lemma isComponent_of_mem (hc : c ∈ components path) : IsComponent c := by
  induction hlen : path.length using Nat.strongRecOn generalizing path with
  | ind n ih =>
    rw [components_eq] at hc
    split at hc
    · cases hc
    · rename_i hhead
      cases List.mem_cons.mp hc with
      | inl heq =>
        obtain ⟨hzero, hslash, hle⟩ :=
          takeComponent_mem (sizeofName - 1) (path.dropWhile (· == slash))
        obtain ⟨b, rest, hp, hb⟩ := exists_head hhead
        subst heq
        refine ⟨?_, hslash, hzero, hle⟩
        rw [hp, sizeofName, takeComponent, if_pos hb]
        exact List.cons_ne_nil _ _
      | inr hin => exact ih _ (hlen ▸ restOf_length hhead) hin rfl

lemma isComponent_dotdot : IsComponent dotdot := by
  constructor <;> decide

end VortexOS.Fs
