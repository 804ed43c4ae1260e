import SorobanRentKeeper.Daemon.Cycle
import SorobanRentKeeper.Daemon.RunLoop

namespace SorobanRentKeeper

open Program

variable {σ : Type}

/-- How many accepted transactions were planned to extend a key. -/
def paidFor (key : LedgerKey) (d : List Event) : Nat :=
  (accepted d).countP fun s => decide (key ∈ s.built.footprintKeys)

@[simp] theorem paidFor_append (key : LedgerKey) (d d' : List Event) :
    paidFor key (d ++ d') = paidFor key d + paidFor key d' := by
  simp [paidFor]

theorem Quiet.paidFor {d : List Event} (h : Quiet d) (key : LedgerKey) :
    paidFor key d = 0 := by
  simp [SorobanRentKeeper.paidFor,h.accepted]

private theorem paidFor_of_served {keeper : Keeper σ} {builder : TxBuilder}
    {plans : List ArchivalPlan} {ds : List (List Event)} (key : LedgerKey)
    (h : List.Forall₂ (Served keeper builder) plans ds) :
    paidFor key ds.flatten =
      (plans.map ArchivalPlan.footprint).countP fun keys => decide (key ∈ keys) := by
  rw [← footprints_of_served h,List.countP_map]
  rfl

/-- One call of `run_cycle`, however it ends, pays at most once for a key. -/
theorem paidFor_runCycle_le (keeper : Keeper σ) (w : World σ) (d : List Event) (key : LedgerKey)
    (hlog : (final (runCycle keeper w)).log = w.log ++ d) : paidFor key d ≤ 1 := by
  obtain ⟨d₁,hlog₁,hrun⟩ := (runCycle_traced keeper w).cases
  rw [hlog,List.append_cancel_left_eq] at hlog₁
  subst hlog₁
  rcases hrun with hok|herr
  · obtain ⟨report,t,_,keys,observations,plans,_,hdone⟩ := hok
    obtain ⟨dq,ds,hprep,hserved,rfl⟩ := hdone.logged
    rw [paidFor_append,hprep.quiet.paidFor,Nat.zero_add,paidFor_of_served key hserved,
      (Planner.planExtendSplit_ok hprep.planned).1]
    exact Planner.countP_classes_le _ _ key
  · obtain ⟨e,t,_,hwhy⟩ := herr
    rcases hwhy with hquiet|hstuck
    · rw [hquiet.paidFor]
      omega
    · obtain ⟨keys,observations,done,plan,rest,hstuck⟩ := hstuck
      obtain ⟨dq,ds,d',hprep,hserved,hun,rfl⟩ := hstuck.logged
      have hnever : paidFor key d' = 0 := by simp [paidFor,hun.never]
      rw [paidFor_append,paidFor_append,hprep.quiet.paidFor,hnever,Nat.zero_add,Nat.add_zero,
        paidFor_of_served key hserved]
      have hall := Planner.countP_classes_le (planner keeper.config)
        (extendable keys observations) key
      rw [← (Planner.planExtendSplit_ok hprep.planned).1,List.map_append,List.countP_append] at hall
      omega

/-- The calls of `run_cycle` in one tick, each with what it logged: all but the last ended in a
transient error. -/
inductive Calls (keeper : Keeper σ) : World σ → List (List Event) → World σ → Prop where
  | last (w : World σ) (d : List Event)
      (hlog : (final (runCycle keeper w)).log = w.log ++ d) :
      Calls keeper w [d] (final (runCycle keeper w))
  | retry (w w' w'' : World σ) (err : KeeperError) (d : List Event) (ds : List (List Event))
      (hrun : runCycle keeper w = .error (.failed err) w') (htransient : isTransient err = true)
      (hlog : w'.log = w.log ++ d) (hrest : Calls keeper w' ds w'') :
      Calls keeper w (d::ds) w''

theorem Calls.log {keeper : Keeper σ} {w w' : World σ} {ds : List (List Event)}
    (h : Calls keeper w ds w') : w'.log = w.log ++ ds.flatten := by
  induction h with
  | last w d hlog => simpa using hlog
  | retry w w' w'' err d ds hrun htransient hlog hrest ih =>
    rw [ih,hlog,List.append_assoc,List.flatten_cons]

theorem Calls.paidFor_le {keeper : Keeper σ} {w w' : World σ} {ds : List (List Event)}
    (h : Calls keeper w ds w') (key : LedgerKey) : ∀ d ∈ ds, paidFor key d ≤ 1 := by
  induction h with
  | last w d hlog =>
    intro x hx
    rw [List.mem_singleton.mp hx]
    exact paidFor_runCycle_le keeper w d key hlog
  | retry w w' w'' err d ds hrun htransient hlog hrest ih =>
    intro x hx
    rcases List.mem_cons.mp hx with rfl|hx
    · apply paidFor_runCycle_le keeper w x key
      rw [hrun]
      exact hlog
    · exact ih x hx

theorem paidFor_flatten_le (key : LedgerKey) (ds : List (List Event))
    (h : ∀ d ∈ ds, paidFor key d ≤ 1) : paidFor key ds.flatten ≤ ds.length := by
  induction ds with
  | nil => simp [paidFor,accepted,sends]
  | cons d ds ih =>
    have hd := h d List.mem_cons_self
    have hds := ih (fun x hx => h x (List.mem_cons_of_mem d hx))
    rw [List.flatten_cons,paidFor_append,List.length_cons]
    omega

/-- A key paid for twice was paid for in a call that then failed and was repeated. -/
theorem Calls.paidFor_before {keeper : Keeper σ} {w w' : World σ} {ds : List (List Event)}
    (h : Calls keeper w ds w') (key : LedgerKey) (htwice : 1 < paidFor key ds.flatten) :
    ∃ d ∈ ds.dropLast, paidFor key d = 1 := by
  induction h with
  | last w d hlog =>
    have hle := paidFor_runCycle_le keeper w d key hlog
    rw [List.flatten_singleton] at htwice
    omega
  | retry w w' w'' err d ds hrun htransient hlog hrest ih =>
    have hne : ds ≠ [] := by cases hrest <;> simp
    rw [List.dropLast_cons_of_ne_nil hne]
    by_cases hd : paidFor key d = 1
    · exact ⟨d,List.mem_cons_self,hd⟩
    · have hle := paidFor_runCycle_le keeper w d key (by rw [hrun]; exact hlog)
      rw [List.flatten_cons,paidFor_append] at htwice
      obtain ⟨x,hx,hpaid⟩ := ih (by omega)
      exact ⟨x,List.mem_cons_of_mem d hx,hpaid⟩

/-- One turn of the retry loop: the call was the last of the tick, or it failed in a transient
way with a turn left. -/
private theorem attempts_succ (keeper : Keeper σ) (left : Nat) (w : World σ) (metrics : Metrics) :
    (attempts keeper (left + 1) w metrics).1 = final (runCycle keeper w) ∨
    left ≠ 0 ∧ ∃ err t, runCycle keeper w = .error (.failed err) t ∧ isTransient err = true ∧
      attempts keeper (left + 1) w metrics = attempts keeper left t metrics := by
  simp only [attempts]
  cases hrun : runCycle keeper w with
  | ok report t => exact .inl rfl
  | error fault t =>
    cases fault with
    | panicked => exact .inl rfl
    | failed err =>
      simp only
      split
      · exact .inl rfl
      · next hretry =>
        rw [not_or] at hretry
        exact .inr ⟨hretry.1,err,t,rfl,by simpa using hretry.2,rfl⟩

/-- The retry loop makes at most as many calls as it is allowed. -/
theorem attempts_calls (keeper : Keeper σ) (left : Nat) (w : World σ) (metrics : Metrics) :
    ∃ ds, Calls keeper w ds (attempts keeper (left + 1) w metrics).1 ∧ ds.length ≤ left + 1 := by
  induction left generalizing w with
  | zero =>
    obtain ⟨d,hd,_⟩ := (runCycle_traced keeper w).cases
    rcases attempts_succ keeper 0 w metrics with hlast|hretry
    · rw [hlast]
      exact ⟨[d],.last w d hd,by simp⟩
    · exact absurd rfl hretry.1
  | succ left ih =>
    obtain ⟨d,hd,_⟩ := (runCycle_traced keeper w).cases
    rcases attempts_succ keeper (left + 1) w metrics with hlast|hretry
    · rw [hlast]
      exact ⟨[d],.last w d hd,by simp⟩
    · obtain ⟨_,err,t,hrun,htransient,hnext⟩ := hretry
      obtain ⟨ds,hcalls,hlen⟩ := ih t
      rw [hrun] at hd
      rw [hnext]
      exact ⟨d::ds,.retry w t _ err d ds hrun htransient hd hcalls,by simpa using hlen⟩

/-- A tick pays for a key at most once in each of its calls, so at most `RETRY_ATTEMPTS` times,
and a second time only after a call that had paid for it failed in a transient way. -/
theorem tick_paidFor (keeper : Keeper σ) (w : World σ) (metrics : Metrics) :
    ∃ ds, Calls keeper w ds (tick keeper w metrics).1 ∧
      (tick keeper w metrics).1.log = w.log ++ ds.flatten ∧
      ∀ key, (∀ d ∈ ds, paidFor key d ≤ 1) ∧ paidFor key ds.flatten ≤ retryAttempts ∧
        (1 < paidFor key ds.flatten → ∃ d ∈ ds.dropLast, paidFor key d = 1) := by
  obtain ⟨ds,hcalls,hlen⟩ := attempts_calls keeper 2 w metrics
  refine ⟨ds,hcalls,hcalls.log,?_⟩
  intro key
  have hle := hcalls.paidFor_le key
  exact ⟨hle,Nat.le_trans (paidFor_flatten_le key ds hle) hlen,hcalls.paidFor_before key⟩

/-- The first pass has its persistent plan accepted and loses the node at its second simulation;
the second pass finds both entries as they were. -/
def flakyWorld : World Script :=
  ⟨⟨.ok "Test SDF Network ; September 2015",
    [.ok (sampleEntries 100 150 150),.ok (sampleEntries 100 150 150)],
    [.ok 7],[.ok codeSimulation,.error "connection reset",.ok codeSimulation,.ok dataSimulation],
    [.ok (Vector.replicate 32 0),.ok (Vector.replicate 32 1),.ok (Vector.replicate 32 2)]⟩,none,[]⟩

/-- The tick of `flakyWorld` extends the code entry twice. -/
theorem tick_paidFor_twice : ¬∀ (keeper : Keeper Script) (w : World Script) (metrics : Metrics)
    (d : List Event) (keys : List LedgerKey),
    resolveWatchKeys keeper.crates keeper.config = .ok keys → keys.Nodup →
    (tick keeper w metrics).1.log = w.log ++ d → ∀ key ∈ keys, paidFor key d ≤ 1 := by
  intro h
  have hle := h sampleKeeper flakyWorld Metrics.new
    (tick sampleKeeper flakyWorld Metrics.new).1.log [codeKey,dataKey]
    (eq_ok_of_toOption (by decide +kernel)) (by decide) (List.nil_append _).symm codeKey (by simp)
  exact absurd hle (by decide +kernel)

end SorobanRentKeeper
