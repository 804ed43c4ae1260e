import SorobanRentKeeper.Daemon.CycleTrace
import SorobanRentKeeper.Framework.Text

namespace SorobanRentKeeper

open Program

/-- How an error text may spell the code of a rejected sequence number. -/
inductive BadSeqName where
  /-- The protocol's. -/
  | protocol
  | json
  /-- The `Debug` name of stellar-xdr. -/
  | debug
  deriving DecidableEq

def BadSeqName.text : BadSeqName → String
  | .protocol => "txBAD_SEQ"
  | .json => "tx_bad_seq"
  | .debug => "TxBadSeq"

theorem contains_iff (text pattern : String) :
    contains text pattern = true ↔ pattern.toList <:+: text.toList := decide_eq_true_iff

theorem contains_bad_seq {text : String} (h : contains text "tx_bad_seq" = true) :
    contains text "bad_seq" = true := by
  have hshorter : "bad_seq".toList <:+: "tx_bad_seq".toList := by decide +kernel
  rw [contains_iff] at h ⊢
  exact hshorter.trans h

/-- A text with one of the patterns the detector looks for; `tx_bad_seq` adds none. -/
def Marked (text : String) : Prop :=
  contains text "bad_seq" = true ∨ contains text "BadSequence" = true ∨
    contains text "BAD_SEQ" = true

theorem isBadSeqError_iff (error : KeeperError) :
    isBadSeqError error = true ↔ Marked error.toString := by
  unfold isBadSeqError
  rw [Bool.or_eq_true,Bool.or_eq_true,Bool.or_eq_true]
  constructor
  · rintro (((h|h)|h)|h)
    · exact .inl (contains_bad_seq h)
    · exact .inl h
    · exact .inr (.inl h)
    · exact .inr (.inr h)
  · rintro (h|h|h)
    · exact .inl (.inl (.inr h))
    · exact .inl (.inr h)
    · exact .inr h

/-- The text around what the node said. -/
def sendWrapping : String := "rpc failure: rpc error: send_transaction:"

theorem toString_sendError (text : String) :
    (sendError text).toString.toList = sendWrapping.toList ++ ' '::text.toList := by
  have htexts : (sendError text).toString =
      "rpc failure: " ++ ("rpc error: " ++ ("send_transaction: " ++ text)) := rfl
  have hwrapping : "rpc failure: ".toList ++ ("rpc error: ".toList ++ "send_transaction: ".toList) =
      sendWrapping.toList ++ [' '] := by decide +kernel
  rw [htexts,String.toList_append,String.toList_append,String.toList_append,← List.append_assoc,
    ← List.append_assoc,List.append_assoc "rpc failure: ".toList,hwrapping,List.append_assoc]
  rfl

theorem contains_sendError_iff (text : String) {pattern : String} (hblank : ' ' ∉ pattern.toList)
    (hwrapping : ¬pattern.toList <:+: sendWrapping.toList) :
    contains (sendError text).toString pattern = true ↔ contains text pattern = true := by
  rw [contains_iff,contains_iff,toString_sendError,Text.infix_append_cons_iff hblank]
  exact or_iff_right hwrapping

/-- The wrapping neither adds a pattern nor completes one: a blank stands before the text. -/
theorem isBadSeqError_sendError_iff (text : String) :
    isBadSeqError (sendError text) = true ↔ Marked text := by
  rw [isBadSeqError_iff]
  exact or_congr (contains_sendError_iff text (by decide +kernel) (by decide +kernel))
    (or_congr (contains_sendError_iff text (by decide +kernel) (by decide +kernel))
      (contains_sendError_iff text (by decide +kernel) (by decide +kernel)))

theorem contains_around {text pattern : String} (h : contains text pattern = true)
    (before after : String) : contains (before ++ text ++ after) pattern = true := by
  rw [contains_iff] at h ⊢
  refine h.trans ⟨before.toList,after.toList,?_⟩
  rw [String.toList_append,String.toList_append]

/-- The protocol's name and the JSON form hold a pattern, whatever is around them. -/
theorem marked_of_ne_debug {name : BadSeqName} (h : name ≠ .debug) (before after : String) :
    Marked (before ++ name.text ++ after) := by
  cases name with
  | protocol => exact .inr (.inr (contains_around (by decide +kernel) before after))
  | json => exact .inl (contains_around (by decide +kernel) before after)
  | debug => exact absurd rfl h

/-- No pattern reaches into the `Debug` name from the left. -/
theorem contains_debug_iff (before after : String) {pattern : String} (h : 'T' ∉ pattern.toList) :
    contains (before ++ "TxBadSeq" ++ after) pattern = true ↔
      contains before pattern = true ∨
        pattern.toList <:+: ['x','B','a','d','S','e','q'] ++ after.toList := by
  have hsplit : (before ++ "TxBadSeq" ++ after).toList =
      before.toList ++ 'T'::(['x','B','a','d','S','e','q'] ++ after.toList) := by
    simp
  rw [contains_iff,contains_iff,hsplit,Text.infix_append_cons_iff h]

/-- None begins inside it either, except that `uence` after the name completes `BadSequence`. -/
theorem marked_debug_iff (before after : String) :
    Marked (before ++ "TxBadSeq" ++ after) ↔
      Marked before ∨ Marked after ∨ "uence".toList <+: after.toList := by
  have hsort : ∀ a b c d e f g : Prop,
      (a ∨ b) ∨ (c ∨ d ∨ e) ∨ (f ∨ g) ↔ (a ∨ c ∨ f) ∨ (b ∨ e ∨ g) ∨ d := by tauto
  have hsnake : "bad_seq".toList <:+: ['x','B','a','d','S','e','q'] ++ after.toList ↔
      contains after "bad_seq" = true := by
    rw [contains_iff]
    simp [List.infix_cons_iff]
  have hcamel : "BadSequence".toList <:+: ['x','B','a','d','S','e','q'] ++ after.toList ↔
      "uence".toList <+: after.toList ∨ contains after "BadSequence" = true := by
    rw [contains_iff]
    simp [List.infix_cons_iff]
  have hupper : "BAD_SEQ".toList <:+: ['x','B','a','d','S','e','q'] ++ after.toList ↔
      contains after "BAD_SEQ" = true := by
    rw [contains_iff]
    simp [List.infix_cons_iff]
  unfold Marked
  rw [contains_debug_iff before after (by decide +kernel),
    contains_debug_iff before after (by decide +kernel),
    contains_debug_iff before after (by decide +kernel),hsnake,hcamel,hupper]
  exact hsort _ _ _ _ _ _ _

variable {σ : Type}

/-- `run_cycle` with the plans `rest` before it and `submitted` accepted ones behind it. -/
def cycleFrom (keeper : Keeper σ) (observedLedger : UInt32) (entriesAtRisk : Nat)
    (rest : List ArchivalPlan) (submitted : Nat) :
    EStateM KeeperError (World σ) CycleReport := do
  let submitted ← rest.foldlM (submitStep keeper (cycleBuilder keeper)) submitted
  return ⟨observedLedger,entriesAtRisk,decide (0 < submitted),submitted⟩

theorem submitCycle_eq_cycleFrom (keeper : Keeper σ) (observedLedger : UInt32)
    {plans : List ArchivalPlan} (h : plans ≠ []) :
    submitCycle keeper observedLedger plans =
      cycleFrom keeper observedLedger (plans.map ArchivalPlan.len).sum plans 0 := by
  unfold submitCycle
  rw [if_neg (by rwa [List.isEmpty_iff])]
  rfl

theorem cycleFrom_append (keeper : Keeper σ) (observedLedger : UInt32) (entriesAtRisk : Nat)
    (done rest : List ArchivalPlan) (submitted : Nat) :
    cycleFrom keeper observedLedger entriesAtRisk (done ++ rest) submitted =
      done.foldlM (submitStep keeper (cycleBuilder keeper)) submitted >>=
        cycleFrom keeper observedLedger entriesAtRisk rest := by
  unfold cycleFrom
  rw [List.foldlM_append,bind_assoc]

theorem cycleFrom_cons (keeper : Keeper σ) (observedLedger : UInt32) (entriesAtRisk : Nat)
    (plan : ArchivalPlan) (rest : List ArchivalPlan) (submitted : Nat) :
    cycleFrom keeper observedLedger entriesAtRisk (plan::rest) submitted =
      submitStep keeper (cycleBuilder keeper) submitted plan >>=
        cycleFrom keeper observedLedger entriesAtRisk rest := by
  unfold cycleFrom
  rw [List.foldlM_cons,bind_assoc]

/-- It only adds to the log. -/
theorem cycleFrom_log (keeper : Keeper σ) (observedLedger : UInt32) (entriesAtRisk : Nat)
    (rest : List ArchivalPlan) (submitted : Nat) (w : World σ) :
    ∃ d, (final (cycleFrom keeper observedLedger entriesAtRisk rest submitted w)).log =
      w.log ++ d := by
  have hloop : Traced World.log (cycleFrom keeper observedLedger entriesAtRisk rest submitted) w
      (fun _ _ _ => True) (fun _ _ _ => True) := by
    unfold cycleFrom
    refine Traced.bind (Q := fun _ _ _ => True) (E := fun _ _ _ => True)
      (Traced.foldlM (I := fun _ _ _ _ => True) rest submitted w trivial ?_) ?_ ?_
    · intro _ plan _ n _ t _ _
      exact Traced.mono (submitStep_traced keeper _ n plan t) (fun _ _ _ _ => trivial)
        fun _ _ _ _ => trivial
    · exact fun _ _ _ _ => traced_pure trivial
    · exact fun _ _ _ _ => trivial
  obtain ⟨d,hd,_⟩ := hloop.cases
  exact ⟨d,hd⟩

/-- A call to `run_cycle` from `w` comes to `plan` in `u`, with `submitted` plans served. -/
structure Reaches (keeper : Keeper σ) (w : World σ) (ledger : UInt32) (done : List ArchivalPlan)
    (plan : ArchivalPlan) (rest : List ArchivalPlan) (submitted : Nat) (u : World σ) : Prop where
  planned : ∃ keys v, resolveWatchKeys keeper.crates keeper.config = .ok keys ∧
    observeAndPlan keeper keys w = .ok (ledger,done ++ plan::rest) v ∧
    submitPlans keeper (cycleBuilder keeper) done v = .ok submitted u

theorem runCycle_of_reaches {keeper : Keeper σ} {w u : World σ} {ledger : UInt32}
    {done rest : List ArchivalPlan} {plan : ArchivalPlan} {submitted : Nat}
    (h : Reaches keeper w ledger done plan rest submitted u) :
    runCycle keeper w = EStateM.adaptExcept Fault.failed
      (submitStep keeper (cycleBuilder keeper) submitted plan >>= cycleFrom keeper ledger
        ((done ++ plan::rest).map ArchivalPlan.len).sum rest) u := by
  obtain ⟨keys,v,hkeys,hplans,hdone⟩ := h.planned
  unfold runCycle
  rw [hkeys]
  refine adaptExcept_congr Fault.failed ?_
  refine (bind_of_ok _ hplans).trans ?_
  change submitCycle keeper ledger (done ++ plan::rest) v = _
  rw [submitCycle_eq_cycleFrom keeper ledger (by simp),cycleFrom_append,← cycleFrom_cons]
  exact bind_of_ok _ hdone

/-- The log of the plan submitted once more: its number follows the one the node gives. -/
def Refreshed (keeper : Keeper σ) (builder : TxBuilder) (plan : ArchivalPlan) (d : List Event) :
    Prop :=
  ∃ reply d', d = .submitPlan plan::.account reply::d' ∧
    ∀ seq built, reply = .ok seq → buildFor keeper builder plan (seq + 1) = .ok built →
      ∃ simulation d'', d' = .simulate built simulation::d''

theorem Refreshed.append {keeper : Keeper σ} {builder : TxBuilder} {plan : ArchivalPlan}
    {d : List Event} (h : Refreshed keeper builder plan d) (d' : List Event) :
    Refreshed keeper builder plan (d ++ d') := by
  obtain ⟨reply,d₁,rfl,hnext⟩ := h
  refine ⟨reply,d₁ ++ d',rfl,?_⟩
  intro seq built hreply hbuild
  obtain ⟨simulation,d₂,rfl⟩ := hnext seq built hreply hbuild
  exact ⟨simulation,d₂ ++ d',rfl⟩

theorem Numbered.refreshed {keeper : Keeper σ} {builder : TxBuilder} {plan : ArchivalPlan}
    {w t : World σ} {n : Int64} {d tail : List Event} (h : Numbered keeper w n d t)
    (hempty : w.sequence = none)
    (hnext : ∀ built, buildFor keeper builder plan n = .ok built →
      ∃ simulation d', tail = .simulate built simulation::d') :
    Refreshed keeper builder plan (.submitPlan plan::d ++ tail) := by
  cases h with
  | cached c _ hcache _ _ =>
    rw [hempty] at hcache
    cases hcache
  | fetched seq _ _ _ _ =>
    refine ⟨.ok seq,tail,rfl,?_⟩
    intro seq' built hreply hbuild
    cases hreply
    exact hnext built hbuild

/-- With the cache empty the number comes from the node. -/
theorem Submit.refreshed {keeper : Keeper σ} {builder : TxBuilder} {plan : ArchivalPlan}
    {w t : World σ} {r : Except KeeperError SubmissionOutcome} {d : List Event}
    (h : Submit keeper builder plan w r d t) (hempty : w.sequence = none) :
    Refreshed keeper builder plan d := by
  rcases h.logged with ⟨_,e,_,rfl⟩|⟨n,dn,u,tail,hn,_,rfl,htail⟩
  · refine ⟨.error e,[],rfl,?_⟩
    intro seq built hreply
    cases hreply
  · apply hn.refreshed hempty
    intro built hbuilt
    cases htail with
    | unbuilt err e hbuild =>
      rw [hbuild] at hbuilt
      cases hbuilt
    | unsent err built' reply hbuild =>
      cases Except.ok.inj (hbuild.symm.trans hbuilt)
      exact ⟨reply,[],rfl⟩
    | refused built' signed response e hbuild herror hfinish =>
      cases Except.ok.inj (hbuild.symm.trans hbuilt)
      exact ⟨_,_,rfl⟩
    | accepted built' signed response hash hbuild herror hfinish =>
      cases Except.ok.inj (hbuild.symm.trans hbuilt)
      exact ⟨_,_,rfl⟩

section Turn

variable {keeper : Keeper σ} {builder : TxBuilder} {plan : ArchivalPlan} {err : KeeperError}
  {u t : World σ}

/-- What the submit loop makes of its retry. -/
def retryOutcome (submitted : Nat) (err : KeeperError) :
    Except KeeperError SubmissionOutcome → EStateM KeeperError (World σ) Nat
  | .ok .accepted => return submitted + 1
  | _ => throw err

theorem retryOutcome_log (submitted : Nat) (err : KeeperError)
    (r : Except KeeperError SubmissionOutcome) (w : World σ) :
    ∃ d, (final (retryOutcome submitted err r w)).log = w.log ++ d := by
  refine ⟨[],?_⟩
  rw [List.append_nil]
  unfold retryOutcome
  split <;> rfl

/-- After a sequence error the plan is submitted once more, from an empty cache. -/
theorem submitStep_retries (submitted : Nat) (h : submitPlan keeper builder plan u = .error err t)
    (hbad : isBadSeqError err = true) :
    ∃ d, (final (submitStep keeper builder submitted plan u)).log = t.log ++ d ∧
      Refreshed keeper builder plan d := by
  have hretry : submitStep keeper builder submitted plan u =
      (Program.attempt (submitPlan keeper builder plan) >>= retryOutcome submitted err)
        { t with sequence := none } :=
    (bind_of_ok _ (attempt_of_error h)).trans (bind_of_ok _ (reportFailure_of_badSeq hbad t))
  obtain ⟨d,hlog,hrun⟩ := (submitPlan_traced keeper builder plan { t with sequence := none }).cases
  have hfresh : Refreshed keeper builder plan d := by
    rcases hrun with ⟨_,_,_,hsubmit⟩|⟨_,_,_,hsubmit⟩
    · exact hsubmit.refreshed rfl
    · exact hsubmit.refreshed rfl
  obtain ⟨d',hlog'⟩ := log_final_bind (x := Program.attempt (submitPlan keeper builder plan))
    (s := { t with sequence := none }) (retryOutcome_log submitted err)
  refine ⟨d ++ d',?_,hfresh.append d'⟩
  rw [hretry,hlog',final_attempt,hlog,List.append_assoc]

/-- After any other error the turn is over. -/
theorem submitStep_gives_up (submitted : Nat)
    (h : submitPlan keeper builder plan u = .error err t) (hother : isBadSeqError err = false) :
    submitStep keeper builder submitted plan u = .error err t :=
  (bind_of_ok _ (attempt_of_error h)).trans (bind_of_ok _ (reportFailure_of_other hother t))

end Turn

/-- A call to `run_cycle` from `w` has the node refuse `plan` with `text`, in `t`. -/
def RefusedWith (keeper : Keeper σ) (text : String) (plan : ArchivalPlan) (w t : World σ) : Prop :=
  ∃ ledger done rest submitted u, Reaches keeper w ledger done plan rest submitted u ∧
    submitPlan keeper (cycleBuilder keeper) plan u = .error (sendError text) t

section Refusal

variable {keeper : Keeper σ} {text : String} {plan : ArchivalPlan} {w t : World σ}

theorem RefusedWith.retried (h : RefusedWith keeper text plan w t)
    (hbad : isBadSeqError (sendError text) = true) :
    ∃ d, (final (runCycle keeper w)).log = t.log ++ d ∧
      Refreshed keeper (cycleBuilder keeper) plan d := by
  obtain ⟨ledger,done,rest,submitted,u,hreaches,hrefused⟩ := h
  rw [runCycle_of_reaches hreaches,final_adaptExcept]
  obtain ⟨d,hlog,hfresh⟩ := submitStep_retries submitted hrefused hbad
  obtain ⟨d',hlog'⟩ := log_final_bind
    (x := submitStep keeper (cycleBuilder keeper) submitted plan) (s := u)
    (cycleFrom_log keeper ledger ((done ++ plan::rest).map ArchivalPlan.len).sum rest)
  refine ⟨d ++ d',?_,hfresh.append d'⟩
  rw [hlog',hlog,List.append_assoc]

theorem accountError_ne_sendError (e text : String) : accountError e ≠ sendError text := by
  intro h
  have hget : "get_account for fee payer (is it funded?): ".toList.head? = some 'g' := by
    decide +kernel
  have hrpc : "rpc error: ".toList.head? = some 'r' := by decide +kernel
  have hheads : ("get_account for fee payer (is it funded?): " ++
      (RentkeeperError.rpc ("get_account: " ++ e)).toString).toList.head? =
        ("rpc error: " ++ ("send_transaction: " ++ text)).toList.head? :=
    congrArg (fun text : String => text.toList.head?) (KeeperError.rpc.inj h)
  rw [String.toList_append,String.toList_append,List.head?_append,List.head?_append,hget,hrpc,
    Option.some_or,Option.some_or] at hheads
  exact absurd hheads (by decide)

/-- A refused number stays in the cache. -/
theorem Submit.cached_of_refused {builder : TxBuilder} {d : List Event}
    (h : Submit keeper builder plan w (.error (sendError text)) d t) :
    ∃ n, t.sequence = some n := by
  rcases h.logged with ⟨_,e,herr,_⟩|⟨n,_,_,_,_,hnext,_,_⟩
  · exact absurd (Except.error.inj herr).symm (accountError_ne_sendError e text)
  · exact ⟨n,hnext⟩

/-- A refusal that is not recognised ends the cycle, and the next number is one further ahead. -/
theorem RefusedWith.drifts (h : RefusedWith keeper text plan w t)
    (hother : isBadSeqError (sendError text) = false) :
    runCycle keeper w = .error (.failed (sendError text)) t ∧
      ∃ n, t.sequence = some n ∧
        keeper.tracker.nextSequence keeper.node t =
          .ok (n + 1) { t with sequence := some (n + 1) } := by
  obtain ⟨ledger,done,rest,submitted,u,hreaches,hrefused⟩ := h
  obtain ⟨_,_,hsubmit⟩ := (submitPlan_traced keeper (cycleBuilder keeper) plan u).error hrefused
  obtain ⟨n,hcached⟩ := hsubmit.cached_of_refused
  refine ⟨?_,n,hcached,?_⟩
  · rw [runCycle_of_reaches hreaches]
    unfold EStateM.adaptExcept
    rw [bind_of_error _ (submitStep_gives_up submitted hrefused hother)]
  · unfold SequenceTracker.nextSequence
    rw [get_bind,hcached]
    rfl

end Refusal

/-- What recovery from a refusal with `text` takes: it is recognised, so the cache is emptied, so
the cycle submits the plan again under a number fresh from the node. -/
structure Recovers (text : String) : Prop where
  recognised : isBadSeqError (sendError text) = true
  emptied : ∀ (σ : Type) (w : World σ), SequenceTracker.reportFailure (sendError text) w =
    .ok true { w with sequence := none }
  retried : ∀ (σ : Type) (keeper : Keeper σ) (plan : ArchivalPlan) (w t : World σ),
    RefusedWith keeper text plan w t → ∃ d, (final (runCycle keeper w)).log = t.log ++ d ∧
      Refreshed keeper (cycleBuilder keeper) plan d

theorem recovers_of_recognised {text : String} (h : isBadSeqError (sendError text) = true) :
    Recovers text :=
  ⟨h,fun _ w => reportFailure_of_badSeq h w,fun _ _ _ _ _ hrefused => hrefused.retried h⟩

/-- The name is one the detector knows, or a pattern is there besides it. -/
def Recognisable (name : BadSeqName) (before after : String) : Prop :=
  name ≠ .debug ∨ Marked before ∨ Marked after ∨ "uence".toList <+: after.toList

/-- The daemon recovers from a refusal that names a bad sequence number, except where the name is
`TxBadSeq` and nothing around it has a pattern of the detector. -/
theorem recovers_iff (name : BadSeqName) (before after : String) :
    Recovers (before ++ name.text ++ after) ↔ Recognisable name before after := by
  constructor
  · intro h
    have hmarked := (isBadSeqError_sendError_iff _).mp h.recognised
    by_cases hname : name = .debug
    · subst hname
      exact .inr ((marked_debug_iff before after).mp hmarked)
    · exact .inl hname
  · intro h
    apply recovers_of_recognised
    rw [isBadSeqError_sendError_iff]
    by_cases hname : name = .debug
    · subst hname
      exact (marked_debug_iff before after).mpr (h.resolve_left (not_not.mpr rfl))
    · exact marked_of_ne_debug hname before after

/-- What the RPC client says of the refusal is not recognised. -/
theorem txBadSeq_not_recovers : ¬∀ (name : BadSeqName) (before after : String),
    Recovers (before ++ name.text ++ after) := by
  intro h
  have hrecognised := (h .debug "transaction submission failed: " "").recognised
  exact absurd hrecognised (by decide +kernel)

end SorobanRentKeeper
