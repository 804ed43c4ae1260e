import SorobanRentKeeper.Daemon.SubmitTrace
import SorobanRentKeeper.Framework.Critical
import Mathlib.Data.List.Nodup

namespace SorobanRentKeeper

open Program

/-- A call of some clone of the tracker. -/
inductive TrackerCall where
  | nextSequence
  | reportFailure (error : KeeperError)

inductive TrackerReply where
  | number (n : Int64)
  | failed (error : KeeperError)
  | dropped (invalidated : Bool)

/-- Where a call stands once it has the lock. -/
inductive TrackerPlace where
  | reading
  | fetching
  | writing (next : Int64)
  | dropping
  | leaving (reply : TrackerReply)

/-- What a call does under the lock. -/
inductive TrackerDeed where
  | read
  | fetched (reply : Except String Int64)
  | wrote
  | invalidated

def trackerWork : TrackerPlace → Option Int64 → TrackerDeed →
    Option (TrackerPlace × Option Int64)
  | .reading,some seq,.read => some (.writing (seq + 1),some seq)
  | .reading,none,.read => some (.fetching,none)
  | .fetching,cached,.fetched (.ok seqNum) => some (.writing (seqNum + 1),cached)
  | .fetching,cached,.fetched (.error e) => some (.leaving (.failed (accountError e)),cached)
  | .writing next,_,.wrote => some (.leaving (.number next),some next)
  | .dropping,_,.invalidated => some (.leaving (.dropped true),none)
  | _,_,_ => none

/-- `SequenceTracker` among concurrent tasks: the clones share the cache and its mutex, and the
account is fetched with the mutex held. `report_failure` locks only for a sequence error. -/
def trackerCode :
    Critical.Code TrackerCall TrackerPlace (Option Int64) TrackerDeed TrackerReply where
  enter
    | .nextSequence => .inr .reading
    | .reportFailure error => if isBadSeqError error then .inr .dropping else .inl (.dropped false)
  work := trackerWork
  result
    | .leaving reply => some reply
    | _ => none

abbrev TrackerSession (Task : Type) :=
  Critical.Call Task TrackerCall (Option Int64) TrackerDeed TrackerReply

abbrev TrackerState (Task : Type) :=
  Critical.State Task TrackerCall TrackerPlace (Option Int64) TrackerDeed TrackerReply

/-- Every way a call can go, from the cache it found to the cache it left. -/
inductive Outcome (cached : Option Int64) :
    TrackerCall → List TrackerDeed → TrackerReply → Option Int64 → Prop where
  | counted (c : Int64) (hcache : cached = some c) :
      Outcome cached .nextSequence [.read,.wrote] (.number (c + 1)) (some (c + 1))
  | fetched (s : Int64) (hcache : cached = none) :
      Outcome cached .nextSequence [.read,.fetched (.ok s),.wrote] (.number (s + 1)) (some (s + 1))
  | unfetched (e : String) (hcache : cached = none) :
      Outcome cached .nextSequence [.read,.fetched (.error e)] (.failed (accountError e)) none
  | invalidated (error : KeeperError) (hbad : isBadSeqError error = true) :
      Outcome cached (.reportFailure error) [.invalidated] (.dropped true) none
  | ignored (error : KeeperError) (hbad : isBadSeqError error = false) :
      Outcome cached (.reportFailure error) [] (.dropped false) cached

theorem runs_leaving {reply reply' : TrackerReply} {place : TrackerPlace}
    {cached after : Option Int64} {deeds : List TrackerDeed}
    (h : trackerCode.runs (.leaving reply) cached deeds = some (place,after))
    (hresult : trackerCode.result place = some reply') :
    deeds = [] ∧ reply' = reply ∧ after = cached := by
  cases deeds with
  | nil =>
    cases h
    exact ⟨rfl,(Option.some.inj hresult).symm,rfl⟩
  | cons deed deeds => cases h

theorem runs_writing {next : Int64} {reply : TrackerReply} {place : TrackerPlace}
    {cached after : Option Int64} {deeds : List TrackerDeed}
    (h : trackerCode.runs (.writing next) cached deeds = some (place,after))
    (hresult : trackerCode.result place = some reply) :
    deeds = [.wrote] ∧ reply = .number next ∧ after = some next := by
  cases deeds with
  | nil =>
    cases h
    cases hresult
  | cons deed deeds =>
    cases deed with
    | wrote =>
      have hrun : trackerCode.runs (.leaving (.number next)) (some next) deeds =
          some (place,after) := h
      have hleft := runs_leaving hrun hresult
      exact ⟨by rw [hleft.1],hleft.2.1,hleft.2.2⟩
    | _ => cases h

/-- A call of `next_sequence` under the lock. -/
theorem outcome_nextSequence {reply : TrackerReply} {place : TrackerPlace}
    {cached after : Option Int64} {deeds : List TrackerDeed}
    (h : trackerCode.runs .reading cached deeds = some (place,after))
    (hresult : trackerCode.result place = some reply) :
    Outcome cached .nextSequence deeds reply after := by
  cases deeds with
  | nil =>
    cases h
    cases hresult
  | cons deed deeds =>
    cases deed with
    | read =>
      cases cached with
      | some c =>
        have hwrote := runs_writing (show trackerCode.runs (.writing (c + 1)) (some c) deeds =
          some (place,after) from h) hresult
        obtain ⟨rfl,rfl,rfl⟩ := hwrote
        exact .counted c rfl
      | none =>
        cases deeds with
        | nil =>
          cases h
          cases hresult
        | cons deed deeds =>
          cases deed with
          | fetched answer =>
            cases answer with
            | ok s =>
              have hwrote := runs_writing (show trackerCode.runs (.writing (s + 1)) none deeds =
                some (place,after) from h) hresult
              obtain ⟨rfl,rfl,rfl⟩ := hwrote
              exact .fetched s rfl
            | error e =>
              have hrun : trackerCode.runs (.leaving (.failed (accountError e))) none deeds =
                  some (place,after) := h
              have hleft := runs_leaving hrun hresult
              obtain ⟨rfl,rfl,rfl⟩ := hleft
              exact .unfetched e rfl
          | _ => cases h
    | _ => cases cached <;> cases h

/-- A call of `report_failure` under the lock. -/
theorem outcome_reportFailure {error : KeeperError} {reply : TrackerReply} {place : TrackerPlace}
    {cached after : Option Int64} {deeds : List TrackerDeed}
    (hbad : isBadSeqError error = true)
    (h : trackerCode.runs .dropping cached deeds = some (place,after))
    (hresult : trackerCode.result place = some reply) :
    Outcome cached (.reportFailure error) deeds reply after := by
  cases deeds with
  | nil =>
    cases h
    cases hresult
  | cons deed deeds =>
    cases deed with
    | invalidated =>
      have hleft := runs_leaving (show trackerCode.runs (.leaving (.dropped true)) none deeds =
        some (place,after) from h) hresult
      obtain ⟨rfl,rfl,rfl⟩ := hleft
      exact .invalidated error hbad
    | _ => cases h

theorem outcome_of_locked {q : TrackerCall} {l place : TrackerPlace} {reply : TrackerReply}
    {cached after : Option Int64} {deeds : List TrackerDeed}
    (henter : trackerCode.enter q = .inr l)
    (hruns : trackerCode.runs l cached deeds = some (place,after))
    (hresult : trackerCode.result place = some reply) : Outcome cached q deeds reply after := by
  cases q with
  | nextSequence =>
    cases henter
    exact outcome_nextSequence hruns hresult
  | reportFailure error =>
    by_cases hbad : isBadSeqError error = true
    · simp only [trackerCode,hbad,if_true,Sum.inr.injEq] at henter
      subst henter
      exact outcome_reportFailure hbad hruns hresult
    · simp only [trackerCode,hbad] at henter
      cases henter

theorem outcome_of_atOnce {q : TrackerCall} {reply : TrackerReply} (cached : Option Int64)
    (henter : trackerCode.enter q = .inl reply) : Outcome cached q [] reply cached := by
  cases q with
  | nextSequence => cases henter
  | reportFailure error =>
    by_cases hbad : isBadSeqError error = true
    · simp only [trackerCode,hbad,if_true] at henter
      cases henter
    · simp only [trackerCode,hbad] at henter
      cases henter
      exact .ignored error (by simpa using hbad)

/-- What a run of the tracker's code comes to, as a reply. -/
def trackerReply : EStateM.Result KeeperError (World Unit) Int64 → TrackerReply
  | .ok n _ => .number n
  | .error error _ => .failed error

/-- A node that only knows one answer about accounts. -/
def answering (answer : Except String Int64) : Node Unit where
  getNetwork s := (.error "no reply",s)
  getLedgerEntries _ s := (.error "no reply",s)
  getAccount _ s := (answer,s)
  simulateTransaction _ s := (.error "no reply",s)
  sendTransaction _ s := (.error "no reply",s)

/-- What a run of `report_failure` comes to, as a reply. -/
def dropReply : EStateM.Result KeeperError (World Unit) Bool → TrackerReply
  | .ok invalidated _ => .dropped invalidated
  | .error error _ => .failed error

/-- The call made by a task that is alone, on a node that answers `answer`: the reply, and the world
with the cache and the exchanges it leaves. -/
def TrackerCall.alone (tracker : SequenceTracker) (answer : Except String Int64)
    (cached : Option Int64) : TrackerCall → TrackerReply × World Unit
  | .nextSequence =>
    let result := tracker.nextSequence (answering answer) ⟨(),cached,[]⟩
    (trackerReply result,final result)
  | .reportFailure error =>
    let result := SequenceTracker.reportFailure error ⟨(),cached,[]⟩
    (dropReply result,final result)

/-- The exchange with the node, if there was one. -/
def TrackerDeed.event : TrackerDeed → Option Event
  | .fetched answer => some (.account answer)
  | _ => none

/-- Under the lock a call does what it does alone. -/
theorem Outcome.alone {cached after : Option Int64} {q : TrackerCall} {deeds : List TrackerDeed}
    {reply : TrackerReply} (h : Outcome cached q deeds reply after) (tracker : SequenceTracker)
    {answer : Except String Int64} (hanswer : ∀ a, .fetched a ∈ deeds → a = answer) :
    q.alone tracker answer cached = (reply,⟨(),after,deeds.filterMap TrackerDeed.event⟩) := by
  cases h with
  | counted c hcache =>
    subst hcache
    rfl
  | fetched s hcache =>
    subst hcache
    cases hanswer (.ok s) (by simp)
    rfl
  | unfetched e hcache =>
    subst hcache
    cases hanswer (.error e) (by simp)
    rfl
  | invalidated error hbad =>
    change (dropReply (SequenceTracker.reportFailure error _),_) = _
    rw [reportFailure_of_badSeq hbad]
    rfl
  | ignored error hbad =>
    change (dropReply (SequenceTracker.reportFailure error _),_) = _
    rw [reportFailure_of_other hbad]
    rfl

/-- A call asks for the account once at most. -/
theorem Outcome.answered {cached after : Option Int64} {q : TrackerCall}
    {deeds : List TrackerDeed} {reply : TrackerReply} (h : Outcome cached q deeds reply after) :
    ∃ answer, ∀ a, .fetched a ∈ deeds → a = answer := by
  cases h with
  | fetched s hcache => exact ⟨.ok s,by simp⟩
  | unfetched e hcache => exact ⟨.error e,by simp⟩
  | _ => exact ⟨.ok 0,by simp⟩

/-- From every place the code goes on to a result, whatever the node answers. -/
theorem runs_ahead (answer : Except String Int64) (place : TrackerPlace)
    (cached : Option Int64) : ∃ deeds reply after,
      trackerCode.runs place cached deeds = some (.leaving reply,after) ∧
      ∀ a, .fetched a ∈ deeds → a = answer := by
  cases place with
  | reading =>
    cases cached with
    | some c => exact ⟨[.read,.wrote],.number (c + 1),some (c + 1),rfl,by simp⟩
    | none =>
      cases answer with
      | ok s => exact ⟨[.read,.fetched (.ok s),.wrote],.number (s + 1),some (s + 1),rfl,by simp⟩
      | error e => exact ⟨[.read,.fetched (.error e)],.failed (accountError e),none,rfl,by simp⟩
  | fetching =>
    cases answer with
    | ok s => exact ⟨[.fetched (.ok s),.wrote],.number (s + 1),some (s + 1),rfl,by simp⟩
    | error e => exact ⟨[.fetched (.error e)],.failed (accountError e),cached,rfl,by simp⟩
  | writing next => exact ⟨[.wrote],.number next,some next,rfl,by simp⟩
  | dropping => exact ⟨[.invalidated],.dropped true,none,rfl,by simp⟩
  | leaving reply => exact ⟨[],reply,cached,rfl,by simp⟩

section Epochs

variable {Task : Type}

/-- The calls dropped the cache. -/
def Invalidates (c : TrackerSession Task) : Prop := .invalidated ∈ c.deeds

/-- What the node answered about the account, in order. -/
def fetches (calls : List (TrackerSession Task)) : List (Except String Int64) :=
  calls.flatMap fun c => c.deeds.filterMap fun deed => match deed with
    | .fetched answer => some answer
    | _ => none

/-- The numbers returned, in order. -/
def numbers (calls : List (TrackerSession Task)) : List Int64 :=
  calls.filterMap fun c => match c.result with
    | .number n => some n
    | _ => none

/-- `count` numbers from the one after `f` on. -/
def countUp (f : Int64) (count : Nat) : List Int64 :=
  (List.range count).map fun i => f + 1 + Int64.ofNat i

theorem countUp_succ (f : Int64) (count : Nat) :
    countUp f (count + 1) = (f + 1)::countUp (f + 1) count := by
  have hstep (i : Nat) : f + 1 + Int64.ofNat (i + 1) = f + 1 + 1 + Int64.ofNat i := by
    rw [Int64.ofNat_add,Int64.add_comm (Int64.ofNat i),← Int64.add_assoc]
    rfl
  unfold countUp
  rw [List.range_succ_eq_map,List.map_cons,List.map_map]
  congr 1
  · exact Int64.add_zero _
  · exact List.map_congr_left fun i _ => hstep i

/-- They are the exact numbers as long as these fit. -/
theorem toInt_countUp (f : Int64) (count i : Nat) (hi : i < count)
    (hfit : f.toInt + 1 + i < 9223372036854775808) :
    ((countUp f count)[i]?).map Int64.toInt = some (f.toInt + 1 + i) := by
  have hlow : -9223372036854775808 ≤ f.toInt := Int64.le_toInt f
  have hsum : f + 1 + Int64.ofNat i = Int64.ofInt (f.toInt + 1 + i) := by
    rw [Int64.ofInt_add,Int64.ofInt_add,Int64.ofInt_toInt,Int64.ofInt_eq_ofNat]
    rfl
  unfold countUp
  rw [List.getElem?_map,List.getElem?_range hi,Option.map_some,Option.map_some,hsum]
  exact congrArg some (Int64.toInt_ofInt_of_le (by omega) hfit)

/-- No number comes twice before the 64 bits are used up. -/
theorem nodup_countUp (f : Int64) (count : Nat) (hfit : count ≤ 18446744073709551616) :
    (countUp f count).Nodup := by
  apply List.nodup_range.map_on
  intro i hi j hj heq
  rw [List.mem_range] at hi hj
  have hofNat := congrArg (fun n => (n - (f + 1)).toBitVec.toNat) heq
  simpa [Int64.add_comm (f + 1),Nat.mod_eq_of_lt (Nat.lt_of_lt_of_le hi hfit),
    Nat.mod_eq_of_lt (Nat.lt_of_lt_of_le hj hfit)] using hofNat

/-- Numbers that count up from an account's. -/
structure CountsFrom (f : Int64) (ns : List Int64) : Prop where
  machine : ns = countUp f ns.length
  exact : ∀ i, i < ns.length → f.toInt + 1 + i < 9223372036854775808 →
    (ns[i]?).map Int64.toInt = some (f.toInt + 1 + i)
  distinct : ns.length ≤ 18446744073709551616 → ns.Nodup

theorem CountsFrom.of_eq {f : Int64} {ns : List Int64} (h : ns = countUp f ns.length) :
    CountsFrom f ns := by
  refine ⟨h,?_,?_⟩
  · intro i hi hfit
    rw [h]
    exact toInt_countUp f ns.length i hi hfit
  · intro hfit
    rw [h]
    exact nodup_countUp f ns.length hfit

/-- Calls between two invalidations: the account is fetched until that succeeds once, and the
numbers count up from it. -/
def Allocated (calls : List (TrackerSession Task)) : Prop :=
  ∃ errors : List String, (fetches calls = errors.map .error ∧ numbers calls = []) ∨
    ∃ f, fetches calls = errors.map .error ++ [.ok f] ∧ numbers calls ≠ [] ∧
      CountsFrom f (numbers calls)

/-- What a call does to the cache, when its fetch fails and when it reports a failure. -/
structure Honours (c : TrackerSession Task) : Prop where
  unfetched : ∀ e, .fetched (.error e) ∈ c.deeds →
    c.result = .failed (accountError e) ∧ c.after = none
  reported : ∀ error, c.request = .reportFailure error →
    (Invalidates c ↔ isBadSeqError error = true) ∧ c.result = .dropped (isBadSeqError error) ∧
    c.after = if isBadSeqError error then none else c.before
  keeps : c.request = .nextSequence → ¬Invalidates c

theorem Honours.of_outcome {c : TrackerSession Task}
    (h : Outcome c.before c.request c.deeds c.result c.after) : Honours c := by
  obtain ⟨task,request,before,deeds,result,after⟩ := c
  simp only at h
  cases h with
  | counted c hcache => exact ⟨by simp,by simp,by simp [Invalidates]⟩
  | fetched s hcache => exact ⟨by simp,by simp,by simp [Invalidates]⟩
  | unfetched e hcache => exact ⟨by simp,by simp,by simp [Invalidates]⟩
  | invalidated error hbad =>
    refine ⟨by simp,?_,by simp⟩
    intro error' herror
    cases herror
    simp [Invalidates,hbad]
  | ignored _ hbad =>
    refine ⟨by simp,?_,by simp⟩
    intro error' herror
    cases herror
    simp [Invalidates,hbad]

theorem Outcome.result_of_nil {cached after : Option Int64} {q : TrackerCall}
    {reply : TrackerReply} (h : Outcome cached q [] reply after) : reply = .dropped false := by
  cases h with
  | ignored error hbad => rfl

/-- A first call, and the cache that the calls behind it come upon. -/
theorem serial_cons {cached end' : Option Int64} {c : TrackerSession Task}
    {calls : List (TrackerSession Task)} (h : trackerCode.Serial cached (c::calls) end') :
    Outcome c.before c.request c.deeds c.result c.after ∧
    ((c.before = cached ∧ trackerCode.Serial c.after calls end') ∨
      (c.deeds = [] ∧ c.result = .dropped false ∧ trackerCode.Serial cached calls end')) := by
  cases h with
  | atOnce _ _ _ _ henter hdeeds hsame hrest =>
    have houtcome := outcome_of_atOnce c.before henter
    rw [hdeeds,hsame]
    exact ⟨houtcome,.inr ⟨rfl,houtcome.result_of_nil,hrest⟩⟩
  | locked _ _ _ _ l l' hbefore henter hruns hresult hrest =>
    rw [← hbefore] at hruns
    exact ⟨outcome_of_locked henter hruns hresult,.inl ⟨hbefore,hrest⟩⟩

theorem outcome_of_serial {cached end' : Option Int64} {calls : List (TrackerSession Task)}
    (h : trackerCode.Serial cached calls end') :
    ∀ c ∈ calls, Outcome c.before c.request c.deeds c.result c.after := by
  induction calls generalizing cached with
  | nil => simp
  | cons c calls ih =>
    obtain ⟨houtcome,hrest⟩ := serial_cons h
    rw [List.forall_mem_cons]
    refine ⟨houtcome,?_⟩
    rcases hrest with ⟨_,hrest⟩|⟨_,_,hrest⟩
    · exact ih hrest
    · exact ih hrest

theorem fetches_cons (c : TrackerSession Task) (calls : List (TrackerSession Task)) :
    fetches (c::calls) = fetches [c] ++ fetches calls := by
  simp [fetches]

theorem numbers_cons (c : TrackerSession Task) (calls : List (TrackerSession Task)) :
    numbers (c::calls) = numbers [c] ++ numbers calls := by
  rw [← List.singleton_append]
  exact List.filterMap_append

/-- With a number cached, the calls count on from it and never ask the node. -/
theorem counted_of_serial {c : Int64} {end' : Option Int64} {calls : List (TrackerSession Task)}
    (h : trackerCode.Serial (some c) calls end') (hkeep : ∀ x ∈ calls, ¬Invalidates x) :
    fetches calls = [] ∧ numbers calls = countUp c (numbers calls).length := by
  induction calls generalizing c with
  | nil => exact ⟨rfl,rfl⟩
  | cons x calls ih =>
    obtain ⟨hx,hkeep'⟩ := List.forall_mem_cons.mp hkeep
    obtain ⟨houtcome,hrest⟩ := serial_cons h
    rw [fetches_cons,numbers_cons]
    obtain ⟨task,request,before,deeds,result,after⟩ := x
    simp only at houtcome hrest
    rcases hrest with ⟨hbefore,hrest⟩|⟨rfl,rfl,hrest⟩
    · cases houtcome with
      | counted c' hcache =>
        cases hbefore.symm.trans hcache
        obtain ⟨hfetches,hnumbers⟩ := ih hrest hkeep'
        refine ⟨by rw [hfetches]; rfl,?_⟩
        have hfirst : numbers [(⟨task,.nextSequence,before,[.read,.wrote],.number (c + 1),
          some (c + 1)⟩ : TrackerSession Task)] = [c + 1] := rfl
        rw [hfirst,List.singleton_append,List.length_cons,countUp_succ,← hnumbers]
      | fetched s hcache => cases hbefore.symm.trans hcache
      | unfetched e hcache => cases hbefore.symm.trans hcache
      | invalidated error hbad => exact absurd List.mem_cons_self hx
      | ignored error hbad =>
        rw [hbefore] at hrest
        exact ih hrest hkeep'
    · exact ih hrest hkeep'

/-- From an empty cache on. -/
theorem allocated_of_serial {end' : Option Int64} {calls : List (TrackerSession Task)}
    (h : trackerCode.Serial none calls end') (hkeep : ∀ x ∈ calls, ¬Invalidates x) :
    Allocated calls := by
  induction calls with
  | nil => exact ⟨[],.inl ⟨rfl,rfl⟩⟩
  | cons x calls ih =>
    obtain ⟨hx,hkeep'⟩ := List.forall_mem_cons.mp hkeep
    obtain ⟨houtcome,hrest⟩ := serial_cons h
    unfold Allocated
    rw [fetches_cons,numbers_cons]
    obtain ⟨task,request,before,deeds,result,after⟩ := x
    simp only at houtcome hrest
    rcases hrest with ⟨hbefore,hrest⟩|⟨rfl,rfl,hrest⟩
    · cases houtcome with
      | counted c hcache => cases hbefore.symm.trans hcache
      | fetched s hcache =>
        obtain ⟨hfetches,hnumbers⟩ := counted_of_serial hrest hkeep'
        refine ⟨[],.inr ⟨s,by rw [hfetches]; rfl,by simp [numbers],CountsFrom.of_eq ?_⟩⟩
        have hfirst : numbers [(⟨task,.nextSequence,before,[.read,.fetched (.ok s),.wrote],
          .number (s + 1),some (s + 1)⟩ : TrackerSession Task)] = [s + 1] := rfl
        rw [hfirst,List.singleton_append,List.length_cons,countUp_succ,← hnumbers]
      | unfetched e hcache =>
        -- the fetch failed: the next one is one more try
        obtain ⟨errors,hrest⟩ := ih hrest hkeep'
        refine ⟨e::errors,hrest.imp ?_ ?_⟩
        · intro hnone
          exact ⟨by rw [hnone.1]; rfl,hnone.2⟩
        · intro hsome
          obtain ⟨f,hfetches,hne,hcounts⟩ := hsome
          exact ⟨f,by rw [hfetches]; rfl,hne,hcounts⟩
      | invalidated error hbad => exact absurd List.mem_cons_self hx
      | ignored error hbad =>
        rw [hbefore] at hrest
        exact ih hrest hkeep'
    · exact ih hrest hkeep'

/-- An invalidation leaves an empty cache. -/
theorem serial_of_invalidates {cached end' : Option Int64} {last : TrackerSession Task}
    (h : trackerCode.Serial cached [last] end') (hlast : Invalidates last) : end' = none := by
  obtain ⟨houtcome,hrest⟩ := serial_cons h
  unfold Invalidates at hlast
  rcases hrest with ⟨_,hrest⟩|⟨hdeeds,_⟩
  · cases hrest
    generalize last.deeds = deeds,last.request = request,last.result = result,
      last.after = after at houtcome hlast
    cases houtcome with
    | invalidated error hbad => rfl
    | _ => simp at hlast
  · rw [hdeeds] at hlast
    cases hlast

/-- A call did what it does alone. -/
def Alone (tracker : SequenceTracker) (answer : Except String Int64) (c : TrackerSession Task) :
    Prop :=
  c.request.alone tracker answer c.before =
    (c.result,⟨(),c.after,c.deeds.filterMap TrackerDeed.event⟩)

variable [DecidableEq Task]

/-- The tracker once a call has returned and the lock is free. -/
def returned (m : TrackerState Task) (c : TrackerSession Task) : TrackerState Task :=
  ⟨c.after,none,Function.update m.phase c.task .idle,m.history ++ [c]⟩

/-- No call is stuck: whatever the node answers, a task that calls or waits while the lock is free
can go on alone to the end of its call, and so can the task that has the lock; the reply and the
cache are what the call gives alone. -/
structure Completes (tracker : SequenceTracker) (m : TrackerState Task) : Prop where
  free : m.holder = none → ∀ t q answer, m.phase t = .idle ∨ (∃ l, m.phase t = .waiting q l) →
    ∃ c, c.task = t ∧ c.request = q ∧ c.before = m.shared ∧ Alone tracker answer c ∧
      Relation.ReflTransGen (Critical.Step trackerCode) m (returned m c)
  taken : ∀ t, m.holder = some t → ∃ q b d l, m.phase t = .inside q b d l ∧
    ∀ answer, ∃ c answer', c.task = t ∧ c.request = q ∧ c.before = b ∧ d <+: c.deeds ∧
      Alone tracker answer' c ∧ ((∀ a, .fetched a ∉ d) → answer' = answer) ∧
      Relation.ReflTransGen (Critical.Step trackerCode) m (returned m c)

/-- A call that has the lock, from the place it has reached. -/
theorem completes_inside (tracker : SequenceTracker) (answer : Except String Int64)
    {m : TrackerState Task} {t : Task} {q : TrackerCall} {b : Option Int64} {d : List TrackerDeed}
    {l l₀ : TrackerPlace} (hinside : m.phase t = .inside q b d l)
    (henter : trackerCode.enter q = .inr l₀)
    (hruns : trackerCode.runs l₀ b d = some (l,m.shared)) : ∃ c answer',
      c.task = t ∧ c.request = q ∧ c.before = b ∧ d <+: c.deeds ∧ Alone tracker answer' c ∧
      ((∀ a, .fetched a ∉ d) → answer' = answer) ∧
      Relation.ReflTransGen (Critical.Step trackerCode) m (returned m c) := by
  obtain ⟨deeds,reply,after,hahead,hfetched⟩ := runs_ahead answer l m.shared
  have hwhole : trackerCode.runs l₀ b (d ++ deeds) = some (.leaving reply,after) :=
    (trackerCode.runs_append l₀ l b m.shared d deeds hruns).trans hahead
  have houtcome : Outcome b q (d ++ deeds) reply after := outcome_of_locked henter hwhole rfl
  have hends := Critical.finish hinside hahead (r := reply) rfl
  by_cases hasked : ∀ a, .fetched a ∉ d
  · refine ⟨⟨t,q,b,d ++ deeds,reply,after⟩,answer,rfl,rfl,rfl,⟨deeds,rfl⟩,?_,fun _ => rfl,hends⟩
    apply houtcome.alone tracker
    intro a ha
    exact hfetched a ((List.mem_append.mp ha).resolve_left (hasked a))
  · obtain ⟨answer',hanswer'⟩ := houtcome.answered
    exact ⟨⟨t,q,b,d ++ deeds,reply,after⟩,answer',rfl,rfl,rfl,⟨deeds,rfl⟩,
      houtcome.alone tracker hanswer',fun h => absurd h hasked,hends⟩

/-- A call that waits, or is yet to be made, with the lock free. -/
theorem completes_waiting (tracker : SequenceTracker) (answer : Except String Int64)
    {m : TrackerState Task} {t : Task} {q : TrackerCall} {l : TrackerPlace}
    (hfree : m.holder = none) (hwait : m.phase t = .waiting q l)
    (henter : trackerCode.enter q = .inr l) : ∃ c,
      c.task = t ∧ c.request = q ∧ c.before = m.shared ∧ Alone tracker answer c ∧
      Relation.ReflTransGen (Critical.Step trackerCode) m (returned m c) := by
  let locked : TrackerState Task := { m with
    holder := some t
    phase := Function.update m.phase t (.inside q m.shared [] l) }
  obtain ⟨c,answer',htask,hrequest,hbefore,_,halone,hanswer,hends⟩ :=
    completes_inside tracker answer (m := locked) (Function.update_self t _ m.phase) henter rfl
  cases hanswer (by simp)
  refine ⟨c,htask,hrequest,hbefore,halone,.head (.lock t q l hwait hfree) ?_⟩
  have hsame : returned locked c = returned m c := by
    unfold returned
    rw [htask,Function.update_idem]
  rw [← hsame]
  exact hends

theorem completes (tracker : SequenceTracker) {m : TrackerState Task}
    (h : Critical.Invariant trackerCode none m) : Completes tracker m := by
  constructor
  · intro hfree t q answer hphase
    rcases hphase with hidle|⟨l,hwait⟩
    · cases henter : trackerCode.enter q with
      | inl reply =>
        have hnone : ∀ a, TrackerDeed.fetched a ∈ [] → a = answer := by simp
        have halone := (outcome_of_atOnce m.shared henter).alone tracker hnone
        refine ⟨⟨t,q,m.shared,[],reply,m.shared⟩,rfl,rfl,rfl,halone,.single ?_⟩
        have hstep := Critical.Step.atOnce t q reply hidle henter
        have hphase : Function.update m.phase t .idle = m.phase := by
          rw [← hidle,Function.update_eq_self]
        unfold returned
        rw [hphase,← hfree]
        exact hstep
      | inr l =>
        let called : TrackerState Task := { m with
          phase := Function.update m.phase t (.waiting q l) }
        obtain ⟨c,htask,hrequest,hbefore,halone,hends⟩ := completes_waiting tracker answer
          (m := called) hfree (Function.update_self t _ m.phase) henter
        refine ⟨c,htask,hrequest,hbefore,halone,.head (.call t q l hidle henter) ?_⟩
        have hsame : returned called c = returned m c := by
          unfold returned
          rw [htask,Function.update_idem]
        rw [← hsame]
        exact hends
    · exact completes_waiting tracker answer hfree hwait (h.queued t q l hwait)
  · intro t hholder
    obtain ⟨q,b,d,l,l₀,hinside,henter,hruns,_⟩ := h.taken t hholder
    exact ⟨q,b,d,l,hinside,fun answer => completes_inside tracker answer hinside henter hruns⟩

/-- However many tasks share the tracker and however they interleave, the numbers returned between
two invalidations count up from the one account fetched between them, every call does what the code
does when it runs alone, and none is stuck. -/
theorem reachable_allocated (tracker : SequenceTracker) (m : TrackerState Task)
    (h : Critical.Reachable trackerCode none m) :
    (∀ before epoch after, m.history = before ++ epoch ++ after →
      (before = [] ∨ ∃ init last, before = init ++ [last] ∧ Invalidates last) →
      (∀ c ∈ epoch, ¬Invalidates c) → Allocated epoch) ∧
    (∀ c ∈ m.history, Honours c ∧ ∃ answer, Alone tracker answer c) ∧ Completes tracker m := by
  obtain ⟨u,hserial⟩ := h.serial
  refine ⟨?_,?_,completes tracker h.invariant⟩
  · intro before epoch after hhistory hfresh hkeep
    rw [hhistory] at hserial
    obtain ⟨_,hserial,_⟩ := hserial.split
    obtain ⟨cached,hbefore,hepoch⟩ := hserial.split
    have hempty : cached = none := by
      rcases hfresh with rfl|⟨init,last,rfl,hlast⟩
      · cases hbefore
        rfl
      · obtain ⟨_,_,hend⟩ := hbefore.split
        exact serial_of_invalidates hend hlast
    subst hempty
    exact allocated_of_serial hepoch hkeep
  · intro c hc
    have houtcome := outcome_of_serial hserial c hc
    obtain ⟨answer,hanswer⟩ := houtcome.answered
    exact ⟨Honours.of_outcome houtcome,answer,houtcome.alone tracker hanswer⟩

end Epochs

/-- Two tasks: one finds the cache empty and fetches the account with the other queued behind it;
then a sequence error is reported. -/
theorem reachable_allocated_pair : ∃ m : TrackerState Bool,
    Critical.Reachable trackerCode none m ∧
    (numbers m.history = [8,9] ∧ fetches m.history = [.ok 7] ∧ m.shared = none) ∧
    (∀ before epoch after, m.history = before ++ epoch ++ after →
      (before = [] ∨ ∃ init last, before = init ++ [last] ∧ Invalidates last) →
      (∀ c ∈ epoch, ¬Invalidates c) → Allocated epoch) ∧
    (∀ c ∈ m.history, Honours c ∧ ∃ answer, Alone ⟨"G"⟩ answer c) ∧ Completes ⟨"G"⟩ m := by
  have hbad : isBadSeqError (.rpc "tx_bad_seq") = true := by decide +kernel
  have henter : trackerCode.enter (.reportFailure (.rpc "tx_bad_seq")) = .inr .dropping := by
    simp only [trackerCode,hbad,if_true]
  have h₀ : Critical.Reachable trackerCode none (Critical.start none : TrackerState Bool) := .refl
  have h₁ := h₀.step (.call true .nextSequence .reading rfl rfl)
  have h₂ := h₁.step (.call false .nextSequence .reading rfl rfl)
  have h₃ := h₂.step (.lock true .nextSequence .reading rfl rfl)
  have h₄ := h₃.step (.work true .nextSequence none [] .reading .read .fetching none rfl rfl)
  have h₅ := h₄.step (.work true .nextSequence none [.read] .fetching (.fetched (.ok 7))
    (.writing 8) none rfl rfl)
  have h₆ := h₅.step (.work true .nextSequence none [.read,.fetched (.ok 7)] (.writing 8) .wrote
    (.leaving (.number 8)) (some 8) rfl rfl)
  have h₇ := h₆.step (.unlock true .nextSequence none [.read,.fetched (.ok 7),.wrote]
    (.leaving (.number 8)) (.number 8) rfl rfl)
  have h₈ := h₇.step (.lock false .nextSequence .reading rfl rfl)
  have h₉ := h₈.step (.work false .nextSequence (some 8) [] .reading .read (.writing 9) (some 8)
    rfl rfl)
  have h₁₀ := h₉.step (.work false .nextSequence (some 8) [.read] (.writing 9) .wrote
    (.leaving (.number 9)) (some 9) rfl rfl)
  have h₁₁ := h₁₀.step (.unlock false .nextSequence (some 8) [.read,.wrote]
    (.leaving (.number 9)) (.number 9) rfl rfl)
  have h₁₂ := h₁₁.step (.call true (.reportFailure (.rpc "tx_bad_seq")) .dropping rfl henter)
  have h₁₃ := h₁₂.step (.lock true (.reportFailure (.rpc "tx_bad_seq")) .dropping rfl rfl)
  have h₁₄ := h₁₃.step (.work true (.reportFailure (.rpc "tx_bad_seq")) (some 9) [] .dropping
    .invalidated (.leaving (.dropped true)) none rfl rfl)
  have h₁₅ := h₁₄.step (.unlock true (.reportFailure (.rpc "tx_bad_seq")) (some 9) [.invalidated]
    (.leaving (.dropped true)) (.dropped true) rfl rfl)
  exact ⟨_,h₁₅,⟨rfl,rfl,rfl⟩,reachable_allocated ⟨"G"⟩ _ h₁₅⟩

end SorobanRentKeeper
