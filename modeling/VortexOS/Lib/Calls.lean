/-
VortexOS.Lib.Calls — recursive procedures that log events.

A procedure is given by the body it has for each argument: the events that
it logs and the arguments that it calls itself with. `exec` runs it with a
bound on the depth of the recursion; `none` means that the run has not
returned within the bound.

What a run logs is, up to order, what the bodies of the arguments in
`order` log (`exec_perm`). These are the arguments that can be reached
along calls (`mem_order`), and each occurs once if the calls form a tree
(`Tree.order_nodup`). The run returns exactly when the argument is
accessible along calls (`returns_iff_acc`).
-/
import Mathlib

namespace VortexOS.Lib

section

variable {β γ ε : Type}

/-- One call for each element of the list, and their logs appended. -/
def concatM (f : β → Option (List ε)) : List β → Option (List ε)
  | [] => some []
  | b :: bs => (f b).bind fun l => (concatM f bs).map (l ++ ·)

variable (f : β → Option (List ε))

@[simp] lemma concatM_nil : concatM f [] = some [] := rfl

@[simp] lemma concatM_cons (b : β) (bs : List β) :
    concatM f (b :: bs) = (f b).bind fun l => (concatM f bs).map (l ++ ·) := rfl

lemma concatM_append (bs cs : List β) :
    concatM f (bs ++ cs) = (concatM f bs).bind fun l => (concatM f cs).map (l ++ ·) := by
  induction bs with
  | nil => simp
  | cons b bs ih =>
    simp only [List.cons_append, concatM_cons, ih]
    cases f b with
    | none => rfl
    | some l =>
      cases concatM f bs with
      | none => rfl
      | some l' => cases concatM f cs <;> simp

lemma concatM_flatMap (g : γ → List β) (cs : List γ) :
    concatM f (cs.flatMap g) = concatM (fun c => concatM f (g c)) cs := by
  induction cs with
  | nil => rfl
  | cons c cs ih => rw [List.flatMap_cons, concatM_append, ih, concatM_cons]

lemma isSome_concatM (bs : List β) : (concatM f bs).isSome ↔ ∀ b ∈ bs, (f b).isSome := by
  induction bs with
  | nil => simp
  | cons b bs ih =>
    simp only [concatM_cons, List.forall_mem_cons, ← ih]
    cases f b <;> simp

lemma mem_concatM {bs : List β} {l : List ε} (h : concatM f bs = some l) (e : ε) :
    e ∈ l ↔ ∃ b ∈ bs, ∃ l', f b = some l' ∧ e ∈ l' := by
  induction bs generalizing l with
  | nil =>
    cases h
    simp
  | cons b bs ih =>
    simp only [concatM_cons, Option.bind_eq_some_iff, Option.map_eq_some_iff] at h
    obtain ⟨lb, hb, lbs, hbs, rfl⟩ := h
    simp [ih hbs, hb]

end

namespace Calls

variable {α ε : Type} (body : α → List (ε ⊕ α))

/-- The run of the body of `x`, with a bound on the depth of the recursion. -/
def exec : Nat → α → Option (List ε)
  | 0, _ => none
  | n + 1, x => concatM (Sum.elim (fun e => some [e]) (exec n)) (body x)

def own (x : α) : List ε := (body x).filterMap Sum.getLeft?

def calls (x : α) : List α := (body x).filterMap Sum.getRight?

/-- The arguments of all calls of the run, in the order in which they
begin. -/
def order : Nat → α → Option (List α)
  | 0, _ => none
  | n + 1, x => (concatM (order n) (calls body x)).map (x :: ·)

def Reach : α → α → Prop := Relation.ReflTransGen fun x y => y ∈ calls body x

variable {body} {x y z c : α} {n m : Nat} {l : List ε} {o : List α}

lemma order_succ : order body (n + 1) x = some o ↔
      ∃ t, concatM (order body n) (calls body x) = some t ∧ o = x :: t := by
  simp [order, eq_comm]

/-! ## What a run logs -/

/-- The part of a body that is left to run: `ih` says what the calls log. -/
lemma concatM_perm (ih : ∀ x l, exec body n x = some l → ∃ o, order body n x = some o ∧
      l.Perm (o.flatMap (own body))) :
    ∀ (is : List (ε ⊕ α)) (l : List ε), concatM (Sum.elim (fun e => some [e]) (exec body n)) is =
      some l → ∃ o, concatM (order body n) (is.filterMap Sum.getRight?) = some o ∧
      l.Perm (is.filterMap Sum.getLeft? ++ o.flatMap (own body)) := by
  intro is
  induction is with
  | nil =>
    intro l h
    cases h
    exact ⟨[], rfl, by simp⟩
  | cons i is ihl =>
    intro l h
    simp only [concatM_cons, Option.bind_eq_some_iff, Option.map_eq_some_iff] at h
    obtain ⟨li, hi, lis, his, rfl⟩ := h
    obtain ⟨o, ho, hperm⟩ := ihl lis his
    cases i with
    | inl e =>
      cases hi
      exact ⟨o, ho, hperm.cons e⟩
    | inr y =>
      obtain ⟨oy, hoy, hpermy⟩ := ih y li hi
      refine ⟨oy ++ o, by simp [hoy, ho], ?_⟩
      -- the log of the call stands before what the rest of the body logs
      have hswap := (hpermy.append hperm).trans (List.perm_append_comm_assoc _ _ _)
      rwa [List.flatMap_append]

lemma exec_perm : ∀ (n : Nat) (x : α) (l : List ε), exec body n x = some l →
    ∃ o, order body n x = some o ∧ l.Perm (o.flatMap (own body)) := by
  intro n
  induction n with
  | zero => intro x l h; cases h
  | succ n ih =>
    intro x l h
    obtain ⟨t, ht, hperm⟩ := concatM_perm ih (body x) l h
    exact ⟨x :: t, order_succ.2 ⟨t, ht, rfl⟩, by simpa [own] using hperm⟩

lemma isSome_exec (n : Nat) : ∀ x, (exec body n x).isSome ↔ (order body n x).isSome := by
  induction n with
  | zero => simp [exec, order]
  | succ n ih =>
    intro x
    simp only [exec, order, Option.isSome_map, isSome_concatM, calls, List.mem_filterMap]
    constructor
    · rintro h y ⟨i, hi, hy⟩
      cases i with
      | inl e => cases hy
      | inr z => cases hy; exact (ih y).1 (h _ hi)
    · intro h i hi
      cases i with
      | inl e => rfl
      | inr y => exact (ih y).2 (h y ⟨_, hi, rfl⟩)

/-! ## The arguments of the calls -/

lemma Reach.head (h : y ∈ calls body x) (hz : Reach body y z) : Reach body x z :=
  Relation.ReflTransGen.head h hz

lemma Reach.tail (h : Reach body x y) (hz : z ∈ calls body y) : Reach body x z :=
  Relation.ReflTransGen.tail h hz

lemma mem_order :
    ∀ (n : Nat) {x : α} {o : List α}, order body n x = some o → (y ∈ o ↔ Reach body x y) := by
  intro n
  induction n with
  | zero => intro x o h; cases h
  | succ n ih =>
    intro x o h
    obtain ⟨t, ht, rfl⟩ := order_succ.1 h
    have hcall : ∀ c ∈ calls body x, ∃ l, order body n c = some l := fun c hc =>
      Option.isSome_iff_exists.1 ((isSome_concatM _ _).1 (by simp [ht]) c hc)
    rw [List.mem_cons, mem_concatM _ ht, Reach, Relation.ReflTransGen.cases_head_iff, eq_comm]
    constructor
    · rintro (rfl | ⟨c, hc, l, hl, hy⟩)
      · exact .inl rfl
      · exact .inr ⟨c, hc, (ih hl).1 hy⟩
    · rintro (rfl | ⟨c, hc, hcy⟩)
      · exact .inl rfl
      · obtain ⟨l, hl⟩ := hcall c hc
        exact .inr ⟨c, hc, l, hl, (ih hl).2 hcy⟩

/-- The calls that can be reached from `x` form a tree with root `x`. -/
structure Tree (body : α → List (ε ⊕ α)) (x : α) : Prop where
  nodup : ∀ y, Reach body x y → (calls body y).Nodup
  unique : ∀ y z c, Reach body x y → Reach body x z → c ∈ calls body y → c ∈ calls body z → y = z
  root : ∀ y, Reach body x y → x ∉ calls body y

namespace Tree

/-- No call leads back to its argument. By induction along the calls: the
only call with this argument is the one that leads here, so its caller would
be on the same cycle. -/
lemma acyclic (h : Tree body x) (hy : Reach body x y) :
    ¬ Relation.TransGen (fun x y => y ∈ calls body x) y y := by
  induction hy with
  | refl =>
    intro hcyc
    obtain ⟨z, hz, hx⟩ := Relation.TransGen.tail'_iff.1 hcyc
    exact h.root z hz hx
  | tail hz hcall ih =>
    intro hcyc
    obtain ⟨w, hw, hy⟩ := Relation.TransGen.tail'_iff.1 hcyc
    have hwz := h.unique _ _ _ ((Reach.tail hz hcall).trans hw) hz hy hcall
    subst hwz
    exact ih (Relation.TransGen.head' hcall hw)

lemma not_reach_caller (h : Tree body x) (hy : Reach body x y) (hc : c ∈ calls body y) :
    ¬ Reach body c y := fun hback => h.acyclic hy (Relation.TransGen.head' hc hback)

lemma child (h : Tree body x) (hc : c ∈ calls body x) : Tree body c where
  nodup y hy := h.nodup y (.head hc hy)
  unique y z d hy hz := h.unique y z d (.head hc hy) (.head hc hz)
  root y hy hcy := by
    have hyx := h.unique y x c (.head hc hy) .refl hcy hc
    subst hyx
    exact h.not_reach_caller .refl hc hy

lemma eq_of_reach (h : Tree body x) {d : α} (hc : c ∈ calls body x) (hd : d ∈ calls body x)
    (hcy : Reach body c y) (hdy : Reach body d y) : c = d := by
  induction hcy with
  | refl =>
    -- `c` is called from `x` only, so it is reached from `d` in no step
    rcases Relation.ReflTransGen.cases_tail_iff _ _ _ |>.1 hdy with heq | ⟨w, hw, hcw⟩
    · exact heq
    · have hwx := h.unique w x c (.head hd hw) .refl hcw hc
      subst hwx
      exact absurd hw (h.not_reach_caller .refl hd)
  | @tail v y hv hcall ih =>
    rcases Relation.ReflTransGen.cases_tail_iff _ _ _ |>.1 hdy with heq | ⟨w, hw, hyw⟩
    · subst heq
      have hvx := h.unique v x y (.head hc hv) .refl hcall hd
      subst hvx
      exact absurd hv (h.not_reach_caller .refl hc)
    · have hwv := h.unique w v y (.head hd hw) (.head hc hv) hyw hcall
      exact ih (hwv ▸ hw)

lemma concatM_nodup (ih : ∀ c o, Tree body c → order body n c = some o → o.Nodup)
    (h : Tree body x) : ∀ (cs : List α) (t : List α), (∀ c ∈ cs, c ∈ calls body x) → cs.Nodup →
    concatM (order body n) cs = some t → t.Nodup := by
  intro cs
  induction cs with
  | nil => intro t _ _ ht; cases ht; exact List.nodup_nil
  | cons c cs ihl =>
    intro t hcs hnd ht
    simp only [concatM_cons, Option.bind_eq_some_iff, Option.map_eq_some_iff] at ht
    obtain ⟨lc, hlc, t, ht, rfl⟩ := ht
    rw [List.forall_mem_cons] at hcs
    rw [List.nodup_cons] at hnd
    refine List.nodup_append'.2 ⟨ih c lc (h.child hcs.1) hlc, ihl t hcs.2 hnd.2 ht, ?_⟩
    intro y hy hyt
    obtain ⟨d, hd, ld, hld, hyd⟩ := (mem_concatM _ ht y).1 hyt
    have hcd := h.eq_of_reach hcs.1 (hcs.2 d hd) ((mem_order n hlc).1 hy) ((mem_order n hld).1 hyd)
    exact hnd.1 (hcd ▸ hd)

lemma order_nodup :
    ∀ (n : Nat) (x : α) (o : List α), Tree body x → order body n x = some o → o.Nodup := by
  intro n
  induction n with
  | zero => intro x o _ h; cases h
  | succ n ih =>
    intro x o htree h
    obtain ⟨t, ht, rfl⟩ := order_succ.1 h
    refine List.nodup_cons.2 ⟨?_, htree.concatM_nodup ih _ t (fun _ => id) (htree.nodup x .refl) ht⟩
    intro hx
    obtain ⟨c, hc, l, hl, hxl⟩ := (mem_concatM _ ht x).1 hx
    exact htree.not_reach_caller .refl hc ((mem_order n hl).1 hxl)

end Tree

/-! ## Whether a run returns -/

lemma isSome_order_succ :
    (order body (n + 1) x).isSome ↔ ∀ c ∈ calls body x, (order body n c).isSome := by
  simp [order, isSome_concatM]

lemma isSome_order_mono :
    ∀ {n m : Nat} {x : α}, n ≤ m → (order body n x).isSome → (order body m x).isSome := by
  intro n
  induction n with
  | zero => intro m x _ h; cases h
  | succ n ih =>
    intro m x hm h
    obtain ⟨m, rfl⟩ : ∃ k, m = k + 1 := ⟨m - 1, by omega⟩
    rw [isSome_order_succ] at h ⊢
    exact fun c hc => ih (by omega) (h c hc)

lemma exists_bound (cs : List α) (h : ∀ c ∈ cs, ∃ n, (order body n c).isSome) :
    ∃ n, ∀ c ∈ cs, (order body n c).isSome := by
  induction cs with
  | nil => exact ⟨0, by simp⟩
  | cons c cs ih =>
    rw [List.forall_mem_cons] at h
    obtain ⟨n, hn⟩ := h.1
    obtain ⟨m, hm⟩ := ih h.2
    refine ⟨max n m, List.forall_mem_cons.2 ⟨?_, ?_⟩⟩
    · exact isSome_order_mono (le_max_left n m) hn
    · exact fun d hd => isSome_order_mono (le_max_right n m) (hm d hd)

lemma returns_iff_acc (x : α) :
    (∃ n, (order body n x).isSome) ↔ Acc (fun y x => y ∈ calls body x) x := by
  constructor
  · rintro ⟨n, h⟩
    induction n generalizing x with
    | zero => cases h
    | succ n ih => exact ⟨x, fun c hc => ih c (isSome_order_succ.1 h c hc)⟩
  · intro h
    induction h with
    | intro x _ ih =>
      obtain ⟨n, hn⟩ := exists_bound (calls body x) ih
      exact ⟨n + 1, isSome_order_succ.2 hn⟩

lemma Reach.acc (h : Acc (fun y x => y ∈ calls body x) x) (hy : Reach body x y) :
    Acc (fun y x => y ∈ calls body x) y := by
  induction hy with
  | refl => exact h
  | tail _ hc ih => exact ih.inv hc

/-- Over a finite type a run fails to return only if it can get into a
cycle. The well-founded relation is that of the calls below `x`. -/
lemma returns_iff_acyclic [Finite α] (x : α) : (∃ n, (order body n x).isSome) ↔
    ∀ y, Reach body x y → ¬ Relation.TransGen (fun x y => y ∈ calls body x) y y := by
  rw [returns_iff_acc]
  constructor
  · intro h y hy hcyc
    have hacc := (Reach.acc h hy).transGen
    have hself := Relation.transGen_swap.1 hcyc
    induction hacc with
    | intro y _ ih => exact ih y hself hy hcyc hself
  · intro h
    let below : α → α → Prop := fun z y => Reach body x y ∧ z ∈ calls body y
    have hirr : Std.Irrefl (Relation.TransGen below) := ⟨fun y hyy => by
      obtain ⟨z, -, hy, -⟩ := Relation.TransGen.tail'_iff.1 hyy
      exact h y hy (Relation.transGen_swap.1 (hyy.lift id fun _ _ hb => hb.2))⟩
    have hwf : WellFounded below :=
      Subrelation.wf Relation.TransGen.single (Finite.wellFounded_of_trans_of_irrefl _)
    have hacc : ∀ y, Reach body x y → Acc (fun y x => y ∈ calls body x) y := by
      intro y
      induction y using hwf.induction with
      | _ y ih => exact fun hy => ⟨y, fun z hz => ih z ⟨hy, hz⟩ (hy.tail hz)⟩
    exact hacc x .refl

end Calls

end VortexOS.Lib
