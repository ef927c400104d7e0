/-
VortexOS.Lib.Logged — computations that log what they access.

`Logged β α` is a computation that may fail to return, `result`, together
with what it has accessed until then, `log`. Forgetting the log composes the
results (`result_bind`, `result_run`). A property of everything that is
accessed splits along the computation (`all_bind`, `all_run`).

`Reaching` says what a loop over numbers meets as far as it gets, and `scan`
is the loop that probes one number after the other.
-/
import VortexOS.Lib.Run

namespace VortexOS.Lib

structure Logged (β α : Type) where
  log : List β
  result : Option α

namespace Logged

variable {β α γ σ : Type}

def quiet (x : Option α) : Logged β α := ⟨[], x⟩

def bind (x : Logged β α) (f : α → Logged β γ) : Logged β γ :=
  match x.result with
  | none => ⟨x.log, none⟩
  | some a => ⟨x.log ++ (f a).log, (f a).result⟩

def map (f : α → γ) (x : Logged β α) : Logged β γ := ⟨x.log, x.result.map f⟩

def All (P : β → Prop) (x : Logged β α) : Prop := ∀ b ∈ x.log, P b

variable {P : β → Prop}

@[simp] lemma result_quiet (x : Option α) : (quiet x : Logged β α).result = x := rfl

@[simp] lemma log_quiet (x : Option α) : (quiet x : Logged β α).log = [] := rfl

@[simp] lemma all_quiet (x : Option α) : (quiet x : Logged β α).All P := by simp [All]

@[simp] lemma result_map (f : α → γ) (x : Logged β α) : (x.map f).result = x.result.map f := rfl

@[simp] lemma all_map (f : α → γ) (x : Logged β α) : (x.map f).All P ↔ x.All P := Iff.rfl

@[simp] lemma result_bind (x : Logged β α) (f : α → Logged β γ) :
    (x.bind f).result = x.result.bind fun a => (f a).result := by
  unfold bind
  cases x.result <;> rfl

lemma all_bind (x : Logged β α) (f : α → Logged β γ) :
    (x.bind f).All P ↔ x.All P ∧ ∀ a, x.result = some a → (f a).All P := by
  unfold bind All
  cases x.result with
  | none => simp
  | some a => simp [or_imp, forall_and]

/-! ## Runs -/

def run (step : σ → α → Logged β σ) : σ → List α → Logged β σ
  | s, [] => quiet (some s)
  | s, a :: as => (step s a).bind fun s' => run step s' as

variable {step : σ → α → Logged β σ}

@[simp] lemma result_run (s : σ) (as : List α) :
    (run step s as).result = Lib.run (fun s a => (step s a).result) s as := by
  induction as generalizing s with
  | nil => rfl
  | cons a as ih =>
    rw [run, result_bind, Lib.run]
    exact congrArg (Option.bind (step s a).result) (funext ih)

lemma all_run {s : σ} {as : List α} : (run step s as).All P ↔
    Along (fun s a => (step s a).result) (fun s a => (step s a).All P) s as := by
  induction as generalizing s with
  | nil => exact iff_of_true (all_quiet _) trivial
  | cons a as ih =>
    rw [run, all_bind, Along]
    exact and_congr_right fun _ => forall_congr' fun s' => imp_congr_right fun _ => ih

/-! ## Loops over numbers -/

/-- What a loop from `a` on meets in `n` rounds: `place` holds in every
round it gets to, and it gets past the rounds that are `ok`. -/
def Reaching (ok place : Nat → Prop) (a n : Nat) : Prop :=
  ∀ i < n, (∀ j < i, ok (a + j)) → place (a + i)

@[simp] lemma reaching_zero (ok place : Nat → Prop) (a : Nat) : Reaching ok place a 0 := by
  simp [Reaching]

lemma reaching_succ {ok place : Nat → Prop} {a n : Nat} :
    Reaching ok place a (n + 1) ↔ place a ∧ (ok a → Reaching ok place (a + 1) n) := by
  constructor
  · intro h
    refine ⟨h 0 (by omega) (by simp), fun hok i hi hbefore => ?_⟩
    rw [Nat.add_right_comm]
    refine h (i + 1) (by omega) fun j hj => ?_
    cases j with
    | zero => exact hok
    | succ j =>
      rw [← Nat.add_assoc, Nat.add_right_comm]
      exact hbefore j (by omega)
  · rintro ⟨hfirst, hrest⟩ i hi hbefore
    cases i with
    | zero => exact hfirst
    | succ i =>
      rw [← Nat.add_assoc, Nat.add_right_comm]
      refine hrest (hbefore 0 (by omega)) i (by omega) fun j hj => ?_
      rw [Nat.add_right_comm]
      exact hbefore (j + 1) (by omega)

/-- A run over numbers whose steps access and return the same whatever the
state. -/
lemma all_range {step : σ → Nat → Logged β σ} {place ok : Nat → Prop}
    (hplace : ∀ s i, (step s i).All P ↔ place i)
    (hok : ∀ s i, (∃ s', (step s i).result = some s') ↔ ok i) (s : σ) (a n : Nat) :
    (run step s (List.range' a n)).All P ↔ Reaching ok place a n := by
  induction n generalizing a s with
  | zero => simp [run]
  | succ n ih =>
    simp only [List.range'_succ, run, all_bind, hplace, ih, reaching_succ]
    rw [← hok s a, exists_imp]

/-- Probes `n`, `n + 1`, and so on, as long as the answers say go on, and
returns where it stopped. -/
def scan (probe : Nat → Logged β α) (go : α → Bool) : Nat → Nat → Logged β Nat
  | 0, _ => quiet none
  | fuel + 1, n => (probe n).bind fun a => if go a then scan probe go fuel (n + 1)
    else quiet (some n)

lemma all_scan {probe : Nat → Logged β α} {go : α → Bool} (fuel n : Nat) :
    (scan probe go fuel n).All P ↔
    Reaching (fun i => ∃ a, (probe i).result = some a ∧ go a = true)
      (fun i => (probe i).All P) n fuel := by
  induction fuel generalizing n with
  | zero => simp [scan]
  | succ fuel ih =>
    rw [scan, all_bind, reaching_succ]
    refine and_congr_right fun _ => ?_
    constructor
    · rintro h ⟨a, ha, hgo⟩
      have hnext := h a ha
      rwa [if_pos hgo, ih] at hnext
    · intro h a ha
      by_cases hgo : go a = true
      · rw [if_pos hgo, ih]
        exact h ⟨a, ha, hgo⟩
      · rw [if_neg hgo]
        exact all_quiet _

end Logged

end VortexOS.Lib
