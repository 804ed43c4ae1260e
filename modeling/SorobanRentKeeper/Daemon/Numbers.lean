import SorobanRentKeeper.Daemon.Counters
import SorobanRentKeeper.Daemon.LogInvariant
import SorobanRentKeeper.Daemon.Recovery
import SorobanRentKeeper.Framework.Lts

namespace SorobanRentKeeper

open Program

/-- What a log tells of the numbers: the last one taken, and whether it is still unused. -/
structure Numbering where
  last : Option Int64
  unused : Bool

/-- Every try takes the next number, an answer about the account starts them anew, and a number
serves one envelope. -/
def Numbering.next (s : Numbering) : Event → Numbering
  | .submitPlan _ => ⟨s.last.map (· + 1),true⟩
  | .account (.ok c) => ⟨some (c + 1),s.unused⟩
  | .account (.error _) => ⟨none,s.unused⟩
  | .simulate _ _ => ⟨s.last,false⟩
  | _ => s

/-- The envelope that goes to the node with a request. -/
def Event.envelope : Event → Option TransactionEnvelope
  | .simulate built _ => some built
  | .send s => some s.signed
  | _ => none

/-- One entry of a log in which every envelope carries the last number taken, and none is built on
a number that has served. -/
structure Counts (s : Numbering) (e : Event) (t : Numbering) : Prop where
  next : t = s.next e
  carries : ∀ envelope, e.envelope = some envelope → ∃ n, s.last = some n ∧
    envelope.seqNum = some n
  fresh : ∀ built reply, e = .simulate built reply → s.unused = true

/-- Nothing is asked about the account. -/
def Unasked (d : List Event) : Prop := ∀ reply, .account reply ∉ d

theorem Numbering.next_counts {s : Numbering} {e : Event} (h : e.envelope = none) :
    Counts s e (s.next e) := by
  constructor
  · rfl
  · intro envelope henvelope
    rw [h] at henvelope
    cases henvelope
  · intro built reply he
    rw [he] at h
    cases h

theorem counts_simulate {n : Int64} {built : TransactionEnvelope}
    (reply : Except String SimulateResponse) (h : built.seqNum = some n) :
    Counts ⟨some n,true⟩ (.simulate built reply) ⟨some n,false⟩ := by
  constructor
  · rfl
  · intro envelope henvelope
    cases henvelope
    exact ⟨n,rfl,h⟩
  · intro _ _ _
    rfl

theorem counts_send {n : Int64} {s : Submission} (unused : Bool) (h : s.signed.seqNum = some n) :
    Counts ⟨some n,unused⟩ (.send s) ⟨some n,unused⟩ := by
  constructor
  · rfl
  · intro envelope henvelope
    cases henvelope
    exact ⟨n,rfl,h⟩
  · intro built reply he
    cases he

/-- Between answers about the account the numbers go up by one with each try; and a number that is
unused after all has been taken since. -/
theorem Counts.consecutive {s t : Numbering} {d : List Event} (h : Lts.Run Counts s d t)
    (hunasked : Unasked d) :
    t.last = s.last.map (· + Int64.ofNat (attempted d).length) ∧
      (s.unused = false → t.unused = true → 0 < (attempted d).length) := by
  induction h with
  | nil s =>
    refine ⟨by simp [attempted],?_⟩
    intro hused hunused
    rw [hused] at hunused
    cases hunused
  | @cons s t u e d hstep hrest ih =>
    have hrestUnasked : Unasked d := fun reply hmem => hunasked reply (List.mem_cons_of_mem e hmem)
    obtain ⟨hlast,hused⟩ := ih hrestUnasked
    rw [hstep.next] at hlast hused
    cases e with
    | submitPlan plan =>
      have hlen : (attempted (.submitPlan plan::d)).length = (attempted d).length + 1 := rfl
      rw [hlen]
      refine ⟨?_,fun _ _ => Nat.succ_pos _⟩
      rw [hlast,Numbering.next,Option.map_map]
      apply congrArg (fun f => Option.map f s.last)
      funext c
      show c + 1 + Int64.ofNat (attempted d).length = _
      rw [Int64.ofNat_add,Int64.add_assoc,Int64.add_comm 1]
      rfl
    | account reply => exact absurd (List.mem_cons_self) (hunasked reply)
    | simulate built reply => exact ⟨hlast,fun _ => hused rfl⟩
    | _ => exact ⟨hlast,hused⟩

/-- The number of an envelope, from where the count stood before the tries since. -/
theorem Counts.number {s t : Numbering} {d after : List Event} {e : Event}
    {envelope : TransactionEnvelope} (h : Lts.Run Counts s (d ++ e::after) t)
    (hunasked : Unasked d) (henvelope : e.envelope = some envelope) :
    ∃ c, s.last = some c ∧
      envelope.seqNum = some (c + Int64.ofNat (attempted d).length) := by
  obtain ⟨u,_,hrun,hstep⟩ := h.at
  obtain ⟨n,hn,hcarries⟩ := hstep.carries envelope henvelope
  have hlast := (Counts.consecutive hrun hunasked).1
  rw [hn] at hlast
  obtain ⟨c,hc,rfl⟩ := Option.map_eq_some_iff.mp hlast.symm
  exact ⟨c,hc,hcarries⟩

/-- The numbers of a log, from what the tracker held before it to what it holds after it: they go up
by one with every try from the last answer about the account, none is built on twice, and after an
answer that failed there are none until the next. The tracker ends empty or at the last of them. -/
structure Consecutive (start : Option Int64) (d : List Event) (cached : Option Int64) : Prop where
  started : ∀ mid e after envelope, d = mid ++ e::after → Unasked mid →
    e.envelope = some envelope →
    ∃ c, start = some c ∧ envelope.seqNum = some (c + Int64.ofNat (attempted mid).length)
  asked : ∀ before c mid e after envelope, d = before ++ .account (.ok c)::(mid ++ e::after) →
    Unasked mid → e.envelope = some envelope →
    envelope.seqNum = some (c + 1 + Int64.ofNat (attempted mid).length)
  unanswered : ∀ before err mid e after, d = before ++ .account (.error err)::(mid ++ e::after) →
    Unasked mid → e.envelope = none
  apart : ∀ before built reply mid built' reply' after,
    d = before ++ .simulate built reply::(mid ++ .simulate built' reply'::after) →
    Unasked mid → 0 < (attempted mid).length
  held : ∀ before c mid, d = before ++ .account (.ok c)::mid → Unasked mid →
    cached = none ∨ cached = some (c + 1 + Int64.ofNat (attempted mid).length)
  unasked : Unasked d →
    cached = none ∨ cached = start.map (· + Int64.ofNat (attempted d).length)
  failed : ∀ before err mid, d = before ++ .account (.error err)::mid → Unasked mid → cached = none

variable {σ : Type}

theorem seqNum_of_buildFor {keeper : Keeper σ} {builder : TxBuilder} {plan : ArchivalPlan}
    {n : Int64} {built : TransactionEnvelope} (h : buildFor keeper builder plan n = .ok built) :
    built.seqNum = some n := by
  obtain ⟨_,_,inner,rfl,hbuilt⟩ := TxBuilder.buildUnsigned_ok h
  exact congrArg some hbuilt.seqNum

/-- What follows the number of a try uses it at most once. -/
theorem Tail.counts {keeper : Keeper σ} {builder : TxBuilder} {plan : ArchivalPlan} {n : Int64}
    {r : Except KeeperError SubmissionOutcome} {d : List Event}
    (h : Tail keeper builder plan n r d) :
    ∃ unused, Lts.Run Counts ⟨some n,true⟩ d ⟨some n,unused⟩ := by
  cases h with
  | unbuilt err e hbuild => exact ⟨true,.nil _⟩
  | unsent err built reply hbuild =>
    exact ⟨false,.single (counts_simulate reply (seqNum_of_buildFor hbuild))⟩
  | refused built signed response e hbuild herror hfinish =>
    have hbuilt := counts_simulate (.ok response) (seqNum_of_buildFor hbuild)
    have hsent : Counts _ (.send ⟨built,signed,.error e⟩) _ :=
      counts_send false (seqNum_of_finish hbuild herror hfinish)
    exact ⟨false,.cons hbuilt (.single hsent)⟩
  | accepted built signed response hash hbuild herror hfinish =>
    have hbuilt := counts_simulate (.ok response) (seqNum_of_buildFor hbuild)
    have hsent : Counts _ (.send ⟨built,signed,.ok hash⟩) _ :=
      counts_send false (seqNum_of_finish hbuild herror hfinish)
    exact ⟨false,.cons hbuilt (.single hsent)⟩

/-- The tracker holds the last number of the log, or nothing. -/
def Accounted (start : Option Int64) (d : List Event) (cached : Option Int64) : Prop :=
  ∃ s, Lts.Run Counts ⟨start,false⟩ d s ∧ (cached = none ∨ cached = s.last)

theorem Accounted.consecutive {start cached : Option Int64} {d : List Event}
    (h : Accounted start d cached) : Consecutive start d cached := by
  obtain ⟨s,hrun,hcached⟩ := h
  constructor
  · intro mid e after envelope hsplit hunasked henvelope
    rw [hsplit] at hrun
    exact Counts.number hrun hunasked henvelope
  · intro before c mid e after envelope hsplit hunasked henvelope
    rw [hsplit] at hrun
    obtain ⟨_,t,_,hanswer,hafter⟩ := hrun.around
    obtain ⟨c',hc',hnumber⟩ := Counts.number hafter hunasked henvelope
    rw [hanswer.next] at hc'
    cases hc'
    exact hnumber
  · intro before err mid e after hsplit hunasked
    rw [hsplit] at hrun
    obtain ⟨_,t,_,hanswer,hafter⟩ := hrun.around
    cases henvelope : e.envelope with
    | none => rfl
    | some envelope =>
      obtain ⟨c,hc,_⟩ := Counts.number hafter hunasked henvelope
      rw [hanswer.next] at hc
      cases hc
  · intro before built reply mid built' reply' after hsplit hunasked
    rw [hsplit] at hrun
    obtain ⟨_,t,_,hfirst,hafter⟩ := hrun.around
    obtain ⟨u,_,hmid,hsecond⟩ := hafter.at
    have hused : t.unused = false := by
      rw [hfirst.next]
      rfl
    exact (Counts.consecutive hmid hunasked).2 hused (hsecond.fresh built' reply' rfl)
  · intro before c mid hsplit hunasked
    rw [hsplit] at hrun
    obtain ⟨_,t,_,hanswer,hafter⟩ := hrun.around
    have hlast := (Counts.consecutive hafter hunasked).1
    rw [hanswer.next] at hlast
    rw [hlast] at hcached
    exact hcached
  · intro hunasked
    rwa [(Counts.consecutive hrun hunasked).1] at hcached
  · intro before err mid hsplit hunasked
    rw [hsplit] at hrun
    obtain ⟨_,t,_,hanswer,hafter⟩ := hrun.around
    have hlast := (Counts.consecutive hafter hunasked).1
    rw [hanswer.next] at hlast
    rw [hlast] at hcached
    exact hcached.elim id id

theorem Submit.accounted {keeper : Keeper σ} {builder : TxBuilder} {plan : ArchivalPlan}
    {start : Option Int64} {before d : List Event} {w t : World σ}
    {r : Except KeeperError SubmissionOutcome} (h : Submit keeper builder plan w r d t)
    (haccounted : Accounted start before w.sequence) :
    Accounted start (before ++ d) t.sequence := by
  obtain ⟨s,hrun,hcached⟩ := haccounted
  have htried : Counts s (.submitPlan plan) (s.next (.submitPlan plan)) :=
    Numbering.next_counts rfl
  rcases h.logged with ⟨hnone,e,_,rfl⟩|⟨n,dn,u,tail,hn,hsequence,rfl,htail⟩
  · have hasked := Numbering.next_counts (s := s.next (.submitPlan plan))
      (e := .account (.error e)) rfl
    exact ⟨_,hrun.append (.cons htried (.single hasked)),.inl hnone⟩
  · obtain ⟨unused,huse⟩ := htail.counts
    refine ⟨⟨some n,unused⟩,hrun.append (.cons htried ?_),.inr hsequence⟩
    cases hn with
    | cached c _ hcache _ _ =>
      have hlast : s.last = some c := by
        rw [hcache] at hcached
        exact (hcached.resolve_left (Option.some_ne_none c)).symm
      have hnext : s.next (.submitPlan plan) = ⟨some (c + 1),true⟩ := by
        simp only [Numbering.next,hlast,Option.map_some]
      rw [hnext]
      exact huse
    | fetched c _ _ _ _ =>
      exact .cons (Numbering.next_counts rfl) huse

theorem accounted_kept (keeper : Keeper σ) (start : Option Int64) :
    Kept keeper (Accounted start) := by
  constructor
  · intro before w d t haccounted hlook
    obtain ⟨s,hrun,hcached⟩ := haccounted
    refine ⟨s,hrun.append ?_,hcached⟩
    have hreads := hlook.reads
    clear hlook
    induction d with
    | nil => exact .nil s
    | cons e d ih =>
      obtain ⟨he,hd⟩ := List.forall_mem_cons.mp hreads
      refine .cons (t := s) ?_ (ih hd)
      rcases he with ⟨_,rfl⟩|⟨_,_,rfl⟩|⟨_,_,rfl⟩
      · exact Numbering.next_counts (s := s) rfl
      · exact Numbering.next_counts (s := s) rfl
      · exact Numbering.next_counts (s := s) rfl
  · intro before cached haccounted
    obtain ⟨s,hrun,_⟩ := haccounted
    exact ⟨s,hrun,.inl rfl⟩
  · intro before plan w r d t haccounted hsubmit
    exact hsubmit.accounted haccounted

/-- A tick is some calls of `run_cycle`, one after the other. -/
theorem attempts_cycles (keeper : Keeper σ) (left : Nat) (w : World σ) (metrics : Metrics) :
    ∃ m, (attempts keeper left w metrics).1 = cycles keeper m w := by
  induction left generalizing w with
  | zero => exact ⟨0,rfl⟩
  | succ left ih =>
    have hlast : final (runCycle keeper w) = cycles keeper 1 w := rfl
    unfold attempts
    cases hrun : runCycle keeper w with
    | ok report t =>
      rw [hrun] at hlast
      exact ⟨1,hlast⟩
    | error fault t =>
      rw [hrun] at hlast
      cases fault with
      | panicked => exact ⟨1,hlast⟩
      | failed err =>
        dsimp only
        split
        · exact ⟨1,hlast⟩
        · obtain ⟨m,hm⟩ := ih t
          refine ⟨m + 1,?_⟩
          rw [hm,cycles,hrun]
          rfl

theorem Kept.runLoop {keeper : Keeper σ} {I : List Event → Option Int64 → Prop}
    (h : Kept keeper I) (n : Nat) (w : World σ) (metrics : Metrics) (hI : I [] w.sequence) :
    ∃ d, (runLoop keeper n w metrics).1.log = w.log ++ d ∧
      I d (runLoop keeper n w metrics).1.sequence := by
  induction n with
  | zero => exact ⟨[],(List.append_nil _).symm,hI⟩
  | succ n ih =>
    obtain ⟨d,hlog,hkept⟩ := ih
    rw [runLoop_succ]
    generalize SorobanRentKeeper.runLoop keeper n w metrics = r at hlog hkept ⊢
    obtain ⟨u,ended⟩ := r
    cases ended with
    | none => exact ⟨d,hlog,hkept⟩
    | some metrics =>
      obtain ⟨m,hm⟩ := attempts_cycles keeper retryAttempts u metrics
      obtain ⟨d',hlog',hkept'⟩ := h.cycles m u d hkept
      refine ⟨d ++ d',?_,?_⟩
      · simp only [tick]
        rw [hm,hlog',show u.log = w.log ++ d from hlog,List.append_assoc]
      · simp only [tick]
        rw [hm]
        exact hkept'

/-- Whatever the node answers, the numbers of a run of any number of ticks are consecutive from one
answer about the account to the next, through every retry and every tick. -/
theorem runLoop_numbers (keeper : Keeper σ) (n : Nat) (w : World σ) (metrics : Metrics) :
    ∃ d, (runLoop keeper n w metrics).1.log = w.log ++ d ∧
      Consecutive w.sequence d (runLoop keeper n w metrics).1.sequence := by
  have hstart : Accounted w.sequence [] w.sequence := ⟨⟨w.sequence,false⟩,.nil _,.inr rfl⟩
  obtain ⟨d,hlog,haccounted⟩ :=
    (accounted_kept keeper w.sequence).runLoop n w metrics hstart
  exact ⟨d,hlog,haccounted.consecutive⟩

end SorobanRentKeeper
