/-
VortexOS.Lib.Run — runs of a machine whose steps may fail to return.

A machine is a function `step : σ → α → Option σ`; `none` means that the
step does not return. `run` folds it over a list of actions, and `Along P`
says that every action of a run meets `P` in the state it is taken in. A
loop over a list is a run too. `run_invariant` concludes that the run
returns AND that the invariant holds at its end; `run_preserves` is for
machines that may stop.

`trace` is for machines whose steps return something. Such a machine
refines a specification, which always returns, when related states give
the same results and lead to related states (`trace_refines`).
-/
import Mathlib

namespace VortexOS.Lib

variable {σ α : Type} (step : σ → α → Option σ)

def run : σ → List α → Option σ
  | s, [] => some s
  | s, a :: as => (step s a).bind fun s' => run s' as

/-- Every action of the run satisfies `P` in the state it starts from. -/
def Along (P : σ → α → Prop) : σ → List α → Prop
  | _, [] => True
  | s, a :: as => P s a ∧ ∀ s', step s a = some s' → Along P s' as

variable {step} {P : σ → α → Prop} {as bs : List α} {a : α} {s t : σ}

lemma run_append (as bs : List α) (s : σ) :
    run step s (as ++ bs) = (run step s as).bind fun t => run step t bs := by
  induction as generalizing s with
  | nil => rfl
  | cons a as ih =>
    rw [List.cons_append, run, run, Option.bind_assoc]
    exact congrArg (Option.bind (step s a)) (funext ih)

instance Along.decidable {P : σ → α → Prop} [∀ s a, Decidable (P s a)] :
    ∀ (s : σ) (as : List α), Decidable (Along step P s as)
  | _, [] => isTrue trivial
  | s, a :: as =>
    match h : step s a with
    | none => decidable_of_iff (P s a) (by simp [Along, h])
    | some s' =>
      have := Along.decidable (P := P) s' as
      decidable_of_iff (P s a ∧ Along step P s' as) (by simp [Along, h])

lemma Along.mono {Q : σ → α → Prop} (h : ∀ s a, P s a → Q s a) :
    ∀ {as : List α} {s : σ}, Along step P s as → Along step Q s as
  | [], _, _ => trivial
  | _ :: _, _, ⟨hp, ht⟩ => ⟨h _ _ hp, fun s' hs => Along.mono h (ht s' hs)⟩

lemma Along.of_forall {P : α → Prop} :
    ∀ {as : List α} {s : σ}, (∀ a ∈ as, P a) → Along step (fun _ => P) s as
  | [], _, _ => trivial
  | a :: _, _, h => ⟨h a (by simp), fun _ _ => Along.of_forall fun b hb => h b (by simp [hb])⟩

lemma run_total (h : ∀ s a, ∃ s', step s a = some s') (as : List α) (s : σ) :
    ∃ s', run step s as = some s' := by
  induction as generalizing s with
  | nil => exact ⟨s, rfl⟩
  | cons a as ih =>
    obtain ⟨s1, h1⟩ := h s a
    obtain ⟨s2, h2⟩ := ih s1
    exact ⟨s2, by rw [run, h1, Option.bind_some, h2]⟩

lemma run_concat (h : run step s (as ++ [a]) = some t) :
    ∃ s', run step s as = some s' ∧ step s' a = some t := by
  rw [run_append] at h
  obtain ⟨s', hs', hstep⟩ := Option.bind_eq_some_iff.mp h
  refine ⟨s', hs', ?_⟩
  simpa [run] using hstep

lemma along_append (h : Along step P s (as ++ bs)) (hrun : run step s as = some t) :
    Along step P s as ∧ Along step P t bs := by
  induction as generalizing s with
  | nil =>
    cases hrun
    exact ⟨trivial, h⟩
  | cons b as ih =>
    obtain ⟨s1, h1, hrest⟩ := Option.bind_eq_some_iff.mp hrun
    obtain ⟨halong, hafter⟩ := ih (h.2 s1 h1) hrest
    refine ⟨⟨h.1, fun s2 h2 => ?_⟩, hafter⟩
    cases h1.symm.trans h2
    exact halong

/-- An invariant that every permitted step returns with holds at the end
of every permitted run. -/
lemma run_invariant (Inv : σ → Prop)
    (hstep : ∀ s a, Inv s → P s a → ∃ s', step s a = some s' ∧ Inv s') :
    ∀ {as : List α} {s : σ}, Inv s → Along step P s as → ∃ s', run step s as = some s' ∧ Inv s'
  | [], s, hs, _ => ⟨s, rfl, hs⟩
  | a :: as, s, hs, ⟨hp, ht⟩ => by
    obtain ⟨s1, h1, hi⟩ := hstep s a hs hp
    obtain ⟨s2, h2, hj⟩ := run_invariant Inv hstep hi (ht s1 h1)
    exact ⟨s2, by simp [run, h1, h2], hj⟩

/-- An invariant that every permitted step keeps, if it returns, holds in
every state that a permitted run reaches. -/
lemma run_preserves (Inv : σ → Prop)
    (hstep : ∀ s a s', Inv s → P s a → step s a = some s' → Inv s') :
    ∀ {as : List α} {s t : σ}, Inv s → Along step P s as → run step s as = some t → Inv t
  | [], s, t, hs, _, hrun => Option.some.inj hrun ▸ hs
  | a :: as, s, t, hs, ⟨hp, ht⟩, hrun => by
    obtain ⟨s1, h1, hrest⟩ := Option.bind_eq_some_iff.mp hrun
    exact run_preserves Inv hstep (hstep s a s1 hs hp h1) (ht s1 h1) hrest

lemma run_keeps (Inv : σ → Prop) (hstep : ∀ s a s', Inv s → step s a = some s' → Inv s')
    (hs : Inv s) (hrun : run step s as = some t) : Inv t :=
  run_preserves (P := fun _ _ => True) Inv (fun s a s' h _ => hstep s a s' h) hs
    (Along.of_forall fun _ _ => trivial) hrun

/-- A property that a step keeps exactly if it meets `C` holds in all states
on the way exactly if all steps meet `C`. -/
lemma prefixes_iff_along {C : σ → α → Prop} {Q : σ → Prop} (Inv : σ → Prop)
    (hstep : ∀ s a, Inv s → P s a → ∃ s', step s a = some s' ∧ Inv s' ∧ (Q s → (Q s' ↔ C s a))) :
    ∀ {s : σ}, Inv s → Q s → Along step P s as →
    ((∀ pre t, pre <+: as → run step s pre = some t → Q t) ↔ Along step C s as) := by
  induction as with
  | nil =>
    intro s _ hq _
    refine iff_of_true (fun pre t hpre hrun => ?_) trivial
    rw [List.prefix_nil.mp hpre] at hrun
    exact Option.some.inj hrun ▸ hq
  | cons a as ih =>
    intro s hi hq hp
    obtain ⟨s1, h1, hi1, hiff⟩ := hstep s a hi hp.1
    have hrun : ∀ pre, run step s (a :: pre) = run step s1 pre := fun pre => by
      rw [run, h1, Option.bind_some]
    constructor
    · intro h
      have hq1 : Q s1 := h [a] s1 (by simp) (hrun [])
      refine ⟨(hiff hq).mp hq1, fun s2 h2 => ?_⟩
      cases h1.symm.trans h2
      refine (ih hi1 hq1 (hp.2 s1 h1)).mp fun pre t hpre ht => ?_
      exact h (a :: pre) t (List.cons_prefix_cons.mpr ⟨rfl, hpre⟩) ((hrun pre).trans ht)
    · rintro ⟨hc, hrest⟩ pre t hpre ht
      have hq1 : Q s1 := (hiff hq).mpr hc
      cases pre with
      | nil => exact Option.some.inj ht ▸ hq
      | cons b pre =>
        obtain ⟨rfl, htail⟩ := List.cons_prefix_cons.mp hpre
        exact (ih hi1 hq1 (hp.2 s1 h1)).mpr (hrest s1 h1) pre t htail ((hrun pre).symm.trans ht)

/-! ## Results -/

section

variable {β τ : Type} (act : σ → α → Option (β × σ)) (spec : τ → α → β × τ)

/-- What the steps of a run return, and the state it ends in. -/
def trace : σ → List α → Option (List β × σ)
  | s, [] => some ([], s)
  | s, a :: as => (act s a).bind fun r => (trace r.2 as).map fun q => (r.1 :: q.1, q.2)

def specTrace : τ → List α → List β × τ
  | t, [] => ([], t)
  | t, a :: as => ((spec t a).1 :: (specTrace (spec t a).2 as).1, (specTrace (spec t a).2 as).2)

/-- Every action satisfies `P` in the state the specification is in. -/
def Permitted (P : τ → α → Prop) : τ → List α → Prop
  | _, [] => True
  | t, a :: as => P t a ∧ Permitted P (spec t a).2 as

variable {act spec}

lemma trace_refines {P : τ → α → Prop} (R : σ → τ → Prop)
    (hstep : ∀ s t a, R s t → P t a → ∃ s', act s a = some ((spec t a).1, s') ∧ R s' (spec t a).2)
    {as : List α} : ∀ {s : σ} {t : τ}, R s t → Permitted spec P t as →
    ∃ s', trace act s as = some ((specTrace spec t as).1, s') ∧ R s' (specTrace spec t as).2 := by
  induction as with
  | nil => exact fun {s t} hR _ => ⟨s, rfl, hR⟩
  | cons a as ih =>
    intro s t hR hp
    obtain ⟨s1, h1, hR1⟩ := hstep s t a hR hp.1
    obtain ⟨s2, h2, hR2⟩ := ih hR1 hp.2
    refine ⟨s2, ?_, hR2⟩
    simp only [trace, h1, h2, Option.bind_some, Option.map_some, specTrace]

lemma trace_invariant (Inv : σ → Prop) (hstep : ∀ s a r s', Inv s → act s a = some (r, s') → Inv s')
    {s s' : σ} {as : List α} {results : List β} (h : Inv s)
    (htrace : trace act s as = some (results, s')) : Inv s' := by
  induction as generalizing s results with
  | nil =>
    cases htrace
    exact h
  | cons a as ih =>
    rw [trace, Option.bind_eq_some_iff] at htrace
    obtain ⟨⟨r, s1⟩, hone, hrest⟩ := htrace
    obtain ⟨q, hq, heq⟩ := Option.map_eq_some_iff.mp hrest
    cases heq
    exact ih (hstep s a r s1 h hone) hq

lemma Permitted.of_forall {P : α → Prop} {as : List α} :
    ∀ {t : τ}, (∀ a ∈ as, P a) → Permitted spec (fun _ => P) t as := by
  induction as with
  | nil => exact fun _ => trivial
  | cons a as ih => exact fun h => ⟨h a (by simp), ih fun b hb => h b (by simp [hb])⟩

end

end VortexOS.Lib
