import SorobanRentKeeper.Daemon.LogInvariant
import SorobanRentKeeper.Daemon.Recovery

namespace SorobanRentKeeper

open Program

variable {σ : Type}

/-- The number of a submission the node accepted. -/
def acceptedNumber : Event → Option Int64
  | .send s => if s.accepted then s.signed.seqNum else none
  | _ => none

theorem acceptedNumber_send (s : Submission) :
    acceptedNumber (.send s) = if s.accepted then s.signed.seqNum else none := rfl

/-- The account's count, as the node gave it. -/
def accountCount : Event → Option Int64
  | .account (.ok s) => some s
  | _ => none

/-- No envelope is signed with a number after an envelope with that number was accepted. -/
def NoReuse (d : List Event) : Prop :=
  (sends d).Pairwise fun s s' => s.accepted = true → s'.signed.seqNum ≠ s.signed.seqNum

/-- What the node says of the account is never behind a number it has accepted. -/
def Current (d : List Event) : Prop :=
  d.Pairwise fun e e' => ∀ q ∈ acceptedNumber e, ∀ r ∈ accountCount e', q ≤ r

/-- The account's count leaves room for one number for every attempt of the run. -/
def Roomy (attempts : Nat) (d : List Event) : Prop :=
  ∀ e ∈ d, ∀ r ∈ accountCount e, r.toInt + attempts < 9223372036854775808

-- stated over `Option.all`, so that it never enumerates the numbers themselves
instance (d : List Event) : Decidable (Current d) :=
  decidable_of_iff (d.Pairwise fun e e' => ((acceptedNumber e).all fun q =>
    (accountCount e').all fun r => decide (q ≤ r)) = true) (by simp [Current,Option.all_eq_true])

instance (attempts : Nat) (d : List Event) : Decidable (Roomy attempts d) :=
  decidable_of_iff (∀ e ∈ d, ((accountCount e).all fun r =>
    decide (r.toInt + (attempts : Int) < 9223372036854775808)) = true)
    (by simp [Roomy,Option.all_eq_true])

/-- Nothing accepted is above the cached number, which grows by at most one with each attempt. -/
structure Ahead (attempts : Nat) (d : List Event) (cached : Option Int64) : Prop where
  fresh : NoReuse d
  above : ∀ c, cached = some c → ∀ e ∈ d, ∀ q, acceptedNumber e = some q → q ≤ c
  bounded : ∀ c, cached = some c → c.toInt + attempts < 9223372036854775808 + (attempted d).length

theorem noReuse_append (d d' : List Event) (h : NoReuse d)
    (hnext : ∀ s ∈ sends d, ∀ s' ∈ sends d', s.accepted = true →
      s'.signed.seqNum ≠ s.signed.seqNum) (h' : NoReuse d') : NoReuse (d ++ d') := by
  unfold NoReuse
  rw [sends_append,List.pairwise_append]
  exact ⟨h,h',hnext⟩

/-- One submission cannot repeat a number. -/
theorem noReuse_of_length_le_one {d : List Event} (h : (sends d).length ≤ 1) : NoReuse d := by
  unfold NoReuse
  cases hsends : sends d with
  | nil => exact .nil
  | cons s rest =>
    rw [hsends,List.length_cons] at h
    have hrest : rest = [] := List.length_eq_zero_iff.mp (by omega)
    rw [hrest]
    exact List.pairwise_singleton _ s

/-- Where everything sent carries one number, only that number is accepted. -/
theorem acceptedNumber_eq_of_sends {d : List Event} {n : Int64}
    (h : ∀ s ∈ sends d, s.signed.seqNum = some n) :
    ∀ e ∈ d, ∀ q, acceptedNumber e = some q → q = n := by
  intro e he q hq
  cases e with
  | send s =>
    rw [acceptedNumber_send] at hq
    split at hq
    · rw [h s (List.mem_filterMap.mpr ⟨.send s,he,rfl⟩)] at hq
      exact (Option.some.inj hq).symm
    · cases hq
  | _ => cases hq

/-- The conditions on a log hold of its beginnings. -/
private theorem current_of_append {D d : List Event} (h : Current (D ++ d)) : Current D :=
  (List.pairwise_append.mp h).1

private theorem roomy_of_append {attempts : Nat} {D d : List Event}
    (h : Roomy attempts (D ++ d)) : Roomy attempts D :=
  fun e he => h e (List.mem_append_left d he)

/-- A run that stays within its room counts by one. -/
theorem toInt_next (c : Int64) (h : c.toInt + 1 < 9223372036854775808) :
    (c + 1).toInt = c.toInt + 1 := by
  have hlow := Int64.le_toInt c
  rw [Int64.toInt_add]
  exact Int.bmod_eq_of_le (by simp; omega) (by simp; omega)

section Taken

variable {keeper : Keeper σ} {builder : TxBuilder} {plan : ArchivalPlan} {attempts : Nat}
  {D d : List Event} {w t : World σ} {n : Int64}

/-- The number taken is above every number accepted before, and still within the bound. -/
theorem Numbered.above (h : Numbered keeper w n d t) (hahead : Ahead attempts D w.sequence)
    (hcurrent : Current (D ++ .submitPlan plan::d))
    (hroomy : Roomy attempts (D ++ .submitPlan plan::d))
    (hattempts : (attempted D).length + 1 ≤ attempts) :
    (∀ e ∈ D, ∀ q, acceptedNumber e = some q → q < n) ∧
      n.toInt + attempts < 9223372036854775808 + ((attempted D).length + 1) := by
  cases h with
  | cached c _ hcache hnode hnext =>
    have hbounded := hahead.bounded c hcache
    have hstep := toInt_next c (by omega)
    refine ⟨?_,by omega⟩
    intro e he q hq
    have hle := hahead.above c hcache e he q hq
    rw [Int64.le_iff_toInt_le] at hle
    rw [Int64.lt_iff_toInt_lt]
    omega
  | fetched s _ hcache hreply hnext =>
    have hroom := hroomy (.account (.ok s)) (by simp) s rfl
    have hstep := toInt_next s (by omega)
    refine ⟨?_,by omega⟩
    intro e he q hq
    unfold Current at hcurrent
    rw [List.pairwise_append] at hcurrent
    have hle := hcurrent.2.2 e he (.account (.ok s)) (by simp) q hq s rfl
    rw [Int64.le_iff_toInt_le] at hle
    rw [Int64.lt_iff_toInt_lt]
    omega

/-- Behind a number taken, at most one submission was sent, under that number. -/
theorem Ahead.taken (hahead : Ahead attempts D w.sequence) (h : Numbered keeper w n d t)
    (tail : List Event) (hattempted : attempted tail = []) (hone : (sends tail).length ≤ 1)
    (hsent : ∀ s ∈ sends tail, s.signed.seqNum = some n)
    (hcurrent : Current (D ++ (.submitPlan plan::d ++ tail)))
    (hroomy : Roomy attempts (D ++ (.submitPlan plan::d ++ tail)))
    (hattempts : (attempted (D ++ (.submitPlan plan::d ++ tail))).length ≤ attempts) :
    Ahead attempts (D ++ (.submitPlan plan::d ++ tail)) (some n) := by
  obtain ⟨hsends,_,hatt,_⟩ := h.log_append plan tail
  rw [attempted_append,hatt,hattempted,List.length_append,List.length_singleton] at hattempts
  have hsplit : D ++ (.submitPlan plan::d ++ tail) = (D ++ .submitPlan plan::d) ++ tail := by
    rw [List.append_assoc]
  have habove := h.above hahead (current_of_append (hsplit ▸ hcurrent))
    (roomy_of_append (hsplit ▸ hroomy)) hattempts
  have htail := acceptedNumber_eq_of_sends (hsends ▸ hsent)
  have honce := noReuse_of_length_le_one (hsends ▸ hone)
  constructor
  · refine noReuse_append D _ hahead.fresh ?_ honce
    intro s hs s' hs' haccepted heq
    rw [hsends] at hs'
    have hnumber : acceptedNumber (.send s) = some n := by
      rw [hsent s' hs'] at heq
      rw [acceptedNumber_send,haccepted,if_pos rfl,← heq]
    have hlt := habove.1 (.send s) (mem_sends.mp hs) n hnumber
    rw [Int64.lt_iff_toInt_lt] at hlt
    omega
  · intro c hc e he q hq
    cases hc
    rcases List.mem_append.mp he with he|he
    · have hlt := habove.1 e he q hq
      rw [Int64.lt_iff_toInt_lt] at hlt
      rw [Int64.le_iff_toInt_le]
      omega
    · rw [htail e he q hq]
      exact Int64.le_refl n
  · intro c hc
    cases hc
    rw [attempted_append,hatt,hattempted,List.length_append,List.length_singleton]
    exact habove.2

/-- Every call of `submit_plan` keeps ahead. -/
theorem Submit.ahead {r : Except KeeperError SubmissionOutcome}
    (hahead : Ahead attempts D w.sequence) (h : Submit keeper builder plan w r d t)
    (hcurrent : Current (D ++ d)) (hroomy : Roomy attempts (D ++ d))
    (hattempts : (attempted (D ++ d)).length ≤ attempts) : Ahead attempts (D ++ d) t.sequence := by
  rcases h.logged with ⟨hnone,e,_,rfl⟩|⟨n,dn,u,tail,hn,hnext,rfl,htail⟩
  · rw [hnone]
    refine ⟨noReuse_append D _ hahead.fresh (by simp [sends]) .nil,?_,?_⟩
    · intro c hc
      cases hc
    · intro c hc
      cases hc
  · rw [hnext]
    cases htail with
    | unbuilt err e hbuild =>
      exact hahead.taken hn _ rfl (by simp [sends]) (by simp [sends]) hcurrent hroomy hattempts
    | unsent err built reply hbuild =>
      exact hahead.taken hn _ rfl (by simp [sends]) (by simp [sends]) hcurrent hroomy hattempts
    | refused built signed response e hbuild herror hfinish =>
      have hseq := seqNum_of_finish hbuild herror hfinish
      exact hahead.taken hn _ rfl (by simp [sends]) (by simpa [sends] using hseq) hcurrent hroomy
        hattempts
    | accepted built signed response hash hbuild herror hfinish =>
      have hseq := seqNum_of_finish hbuild herror hfinish
      exact hahead.taken hn _ rfl (by simp [sends]) (by simpa [sends] using hseq) hcurrent hroomy
        hattempts

end Taken

/-- Staying ahead, on condition of the log so far, is kept by whole runs. -/
theorem kept_ahead (keeper : Keeper σ) (attempts : Nat) :
    Kept keeper fun D c => Current D → Roomy attempts D → (attempted D).length ≤ attempts →
      Ahead attempts D c := by
  constructor
  · intro D w d t hI hlook hcurrent hroomy hattempts
    have hquiet := hlook.quiet
    rw [attempted_append,hquiet.attempted,List.append_nil] at hattempts
    have hahead := hI (current_of_append hcurrent) (roomy_of_append hroomy) hattempts
    constructor
    · refine noReuse_append D d hahead.fresh ?_ (noReuse_of_length_le_one (by simp [hquiet.sends]))
      rw [hquiet.sends]
      simp
    · intro c hc e he q hq
      rcases List.mem_append.mp he with he|he
      · exact hahead.above c hc e he q hq
      · rcases hlook.reads e he with ⟨_,rfl⟩|⟨_,_,rfl⟩|⟨_,_,rfl⟩ <;> cases hq
    · rw [attempted_append,hquiet.attempted,List.append_nil]
      exact hahead.bounded
  · intro D c hI hcurrent hroomy hattempts
    have hahead := hI hcurrent hroomy hattempts
    refine ⟨hahead.fresh,?_,?_⟩
    · intro c hc
      cases hc
    · intro c hc
      cases hc
  · intro D plan w r d t hI hsubmit hcurrent hroomy hattempts
    have hle : (attempted D).length ≤ attempts := by
      rw [attempted_append,List.length_append] at hattempts
      omega
    exact hsubmit.ahead (hI (current_of_append hcurrent) (roomy_of_append hroomy) hle) hcurrent
      hroomy hattempts

/-- From an empty tracker on, no number is signed again after its acceptance, as long as the node
is never behind the numbers it accepted and the numbers stay below the machine's bound. -/
theorem cycles_noReuse (keeper : Keeper σ) (n : Nat) (w : World σ) (d : List Event)
    (hempty : w.sequence = none) (hlog : (cycles keeper n w).log = w.log ++ d)
    (hcurrent : Current d) (hroomy : Roomy (attempted d).length d) : NoReuse d := by
  have hstart : Ahead (attempted d).length [] w.sequence := by
    rw [hempty]
    refine ⟨.nil,?_,?_⟩
    · intro c hc
      cases hc
    · intro c hc
      cases hc
  obtain ⟨d',hlog',hahead⟩ := (kept_ahead keeper (attempted d).length).cycles n w []
    (fun _ _ _ => hstart)
  rw [hlog,List.append_cancel_left_eq] at hlog'
  subst hlog'
  exact (hahead hcurrent hroomy (Nat.le_refl _)).fresh

/-- The node answers about the account as of the last closed ledger, which only moves on. -/
structure LastClosed (node : Node σ) (closed : σ → Int64) : Prop where
  network : ∀ s, closed s ≤ closed (node.getNetwork s).2
  entries : ∀ keys s, closed s ≤ closed (node.getLedgerEntries keys s).2
  account : ∀ id s, ∃ s', node.getAccount id s = (.ok (closed s'),s') ∧ closed s ≤ closed s'
  simulation : ∀ envelope s, closed s ≤ closed (node.simulateTransaction envelope s).2
  submission : ∀ envelope s, closed s ≤ closed (node.sendTransaction envelope s).2

/-- An account between two ledgers: its count when the last one closed, its count with everything
accepted since, and what foreign submitters will add before the next submissions. -/
structure OpenLedger where
  closed : Int64
  next : Int64
  foreign : List Int64

/-- A node that accepts the next number and nothing else, over the two sample entries. -/
def openNode : Node OpenLedger where
  getNetwork s := (.ok "Test SDF Network ; September 2015",s)
  getLedgerEntries _ s := (.ok (sampleEntries 100 150 150),s)
  getAccount _ s := (.ok s.closed,s)
  simulateTransaction _ s := (.ok codeSimulation,s)
  sendTransaction envelope s :=
    let next := s.next + s.foreign.headD 0
    if envelope.seqNum = some (next + 1) then
      (.ok (Vector.replicate 32 0),⟨s.closed,next + 1,s.foreign.tail⟩)
    else (.error "transaction failed: tx_bad_seq",⟨s.closed,next,s.foreign.tail⟩)

theorem openNode_lastClosed : LastClosed openNode OpenLedger.closed := by
  constructor
  · exact fun s => Int64.le_refl s.closed
  · exact fun _ s => Int64.le_refl s.closed
  · exact fun _ s => ⟨s,rfl,Int64.le_refl s.closed⟩
  · exact fun _ s => Int64.le_refl s.closed
  · intro envelope s
    unfold openNode
    dsimp only
    split <;> exact Int64.le_refl s.closed

/-- The sample daemon over an open ledger. -/
def openKeeper : Keeper OpenLedger where
  crates := sampleCrates
  node := openNode
  config := sampleKeeper.config
  payer := sampleKeeper.payer
  tracker := sampleKeeper.tracker

/-- Undisturbed, two cycles take four numbers from one look at the account. -/
theorem cycles_noReuse_open :
    NoReuse (cycles openKeeper 2 ⟨⟨7,7,[]⟩,none,[]⟩).log ∧
      (accepted (cycles openKeeper 2 ⟨⟨7,7,[]⟩,none,[]⟩).log).map (fun s => s.signed.seqNum) =
        [some 8,some 9,some 10,some 11] :=
  ⟨cycles_noReuse openKeeper 2 ⟨⟨7,7,[]⟩,none,[]⟩ _ rfl (List.nil_append _).symm
    (by decide +kernel) (by decide +kernel),by decide +kernel⟩

/-- A foreign submission between the two plans: the second is refused, the account as of the last
ledger does not know of the first yet, and its number is signed again. -/
theorem cycles_reuse : ¬∀ (keeper : Keeper OpenLedger) (closed : OpenLedger → Int64) (n : Nat)
    (w : World OpenLedger) (d : List Event), LastClosed keeper.node closed → w.sequence = none →
    (cycles keeper n w).log = w.log ++ d → NoReuse d := by
  intro h
  have hfresh := h openKeeper OpenLedger.closed 1 ⟨⟨7,7,[0,1]⟩,none,[]⟩ _ openNode_lastClosed rfl
    (List.nil_append _).symm
  unfold NoReuse at hfresh
  exact absurd hfresh (by decide +kernel)

end SorobanRentKeeper
