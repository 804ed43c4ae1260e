import SorobanRentKeeper.Daemon.Session
import SorobanRentKeeper.Framework.Chunks

namespace SorobanRentKeeper

open Program

variable {σ : Type}

/-- What each kind of request to the node costs. -/
structure Prices where
  network : Nat
  read : Nat
  account : Nat
  simulate : Nat
  send : Nat

namespace Prices

/-- What the daemon notes down for itself costs nothing. -/
def cost (prices : Prices) : Event → Nat
  | .network _ => prices.network
  | .ledgerEntries _ _ => prices.read
  | .observed _ _ => 0
  | .account _ => prices.account
  | .submitPlan _ => 0
  | .simulate _ _ => prices.simulate
  | .send _ => prices.send

def total (prices : Prices) (d : List Event) : Nat := (d.map prices.cost).sum

/-- One try at a plan. -/
def trial (prices : Prices) : Nat := prices.account + prices.simulate + prices.send

/-- What is put by for a turn after its first try and for the turns behind it. -/
def reserve (prices : Prices) (turn : Turn) : Nat :=
  (if turn.again then 0 else prices.trial) + 2 * prices.trial * turn.rest.length

/-- What the rest of a call can cost at most: there are two plans, and two tries at each. -/
def saved (prices : Prices) : Stage → Nat
  | .closed => 0
  | .looking _ chunks => prices.read * chunks.length + 4 * prices.trial
  | .ready plans => 2 * prices.trial * plans.length
  | .entered turn => prices.trial + prices.reserve turn
  | .numbered turn _ => prices.simulate + prices.send + prices.reserve turn
  | .simulated turn _ _ => prices.send + prices.reserve turn
  | .failed turn => prices.reserve turn

theorem saved_leaves (prices : Prices) {s : Stage} {turn : Turn} (h : s.Leaves turn) :
    prices.reserve turn ≤ prices.saved s := by
  cases h with
  | entered turn => exact Nat.le_add_left _ _
  | numbered turn n => exact Nat.le_add_left _ _
  | simulated turn built response => exact Nat.le_add_left _ _
  | failed turn => exact Nat.le_refl _

theorem saved_turn (prices : Prices) {s : Stage} {turn : Turn} {n : Int64}
    (h : s = .entered turn ∨ s = .numbered turn n) :
    prices.simulate + prices.send + prices.reserve turn ≤ prices.saved s := by
  rcases h with rfl|rfl
  · simp only [saved,trial]
    omega
  · exact Nat.le_refl _

/-- Every step of a call pays for what it asks out of what is put by. -/
theorem paid (prices : Prices) {keeper : Keeper σ} {s t : Stage} {e : Event}
    (h : Exchange keeper s e t) : prices.cost e + prices.saved t ≤ prices.saved s := by
  have hplans (n : Nat) : 2 * prices.trial * (n + 1) = 2 * prices.trial * n + 2 * prices.trial :=
    Nat.mul_succ _ _
  cases h with
  | read read chunk chunks reply =>
    simp only [cost,saved,List.length_cons,Nat.mul_succ]
    omega
  | observed read keys observations plans hkeys hprep =>
    have hle := Nat.mul_le_mul_left (2 * prices.trial) (length_plans_le hprep.planned)
    simp only [cost,saved,List.length_nil]
    omega
  | unplanned read keys observations hkeys => exact Nat.zero_le _
  | submit plan rest =>
    simp only [cost,saved,reserve,List.length_cons,hplans,Bool.false_eq_true,if_false]
    omega
  | again _ plan rest hleaves =>
    have hreserve := prices.saved_leaves hleaves
    show 0 + (prices.trial + prices.reserve ⟨plan,rest,true⟩) ≤ prices.saved s
    simp only [reserve,Bool.false_eq_true,if_false] at hreserve
    simp only [reserve,if_true]
    omega
  | account turn c =>
    simp only [cost,saved,trial]
    omega
  | unnumbered turn e =>
    simp only [cost,saved,trial]
    omega
  | simulate _ turn n built response hs hbuild herror =>
    have hsaved := prices.saved_turn hs
    show prices.simulate + (prices.send + prices.reserve turn) ≤ prices.saved s
    omega
  | unsimulated _ turn n built reply hs hbuild =>
    have hsaved := prices.saved_turn hs
    show prices.simulate + prices.reserve turn ≤ prices.saved s
    omega
  | accepted turn built signed response hash hfinish =>
    simp only [cost,saved,reserve]
    omega
  | refused turn built signed response e hfinish =>
    simp only [cost,saved]
    omega

/-- The most a call can cost: it asks for the network, reads the watch list, and tries four
times. -/
def callBound (prices : Prices) (config : ValidConfig) : Nat :=
  prices.network + prices.read * ((config.watch.length + 49) / 50) + 4 * prices.trial

theorem total_append (prices : Prices) (d d' : List Event) :
    prices.total (d ++ d') = prices.total d + prices.total d' := by
  unfold total
  rw [List.map_append,List.sum_append]

/-- A call costs no more than that. -/
theorem total_called (prices : Prices) {keeper : Keeper σ} {d : List Event}
    (h : Called keeper d) : prices.total d ≤ prices.callBound keeper.config := by
  cases h with
  | unresolved => exact Nat.zero_le _
  | foreign _ reply hreply hother =>
    unfold callBound
    simp only [total,cost,List.map_cons,List.map_nil,List.sum_cons,List.sum_nil]
    omega
  | exchange _ keys d t hreply hkeys hrun =>
    have hlen : keeper.config.watch.length = keys.length := (mapM_eq_ok_iff.mp hkeys).length_eq
    have hchunks := Chunks.length_toChunks 49 keys
    have hsum := hrun.sum_le prices.cost prices.saved fun s e t h => prices.paid h
    have hstart : prices.saved (.looking [] (keys.toChunks Provider.observeBatchEntries)) =
        prices.read * ((keeper.config.watch.length + 49) / 50) + 4 * prices.trial := by
      rw [hlen,← hchunks]
      rfl
    rw [hstart] at hsum
    unfold total callBound
    rw [List.map_cons,List.sum_cons]
    show prices.network + (d.map prices.cost).sum ≤ _
    omega

theorem total_flatten (prices : Prices) {keeper : Keeper σ} {ds : List (List Event)}
    (h : ∀ d ∈ ds, Called keeper d) :
    prices.total ds.flatten ≤ ds.length * prices.callBound keeper.config := by
  induction ds with
  | nil => exact Nat.zero_le _
  | cons d ds ih =>
    have hfirst := prices.total_called (h d List.mem_cons_self)
    have hrest := ih fun d' hd' => h d' (List.mem_cons_of_mem _ hd')
    rw [List.flatten_cons,total_append,List.length_cons,Nat.succ_mul]
    omega

end Prices

/-- Whatever the node answers and whatever its requests cost, a run of `n` ticks costs no more
than `3 * n` calls, each of which asks for the network once, reads every chunk of the watch list
once and tries to submit four times. -/
theorem runLoop_total (keeper : Keeper σ) (n : Nat) (w : World σ) (metrics : Metrics) :
    ∃ d, (runLoop keeper n w metrics).1.log = w.log ++ d ∧
      ∀ prices : Prices, prices.total d ≤ retryAttempts * n * prices.callBound keeper.config := by
  obtain ⟨ds,hlen,hall,hlog⟩ := runLoop_called keeper n w metrics
  refine ⟨ds.flatten,hlog,?_⟩
  intro prices
  exact Nat.le_trans (prices.total_flatten hall) (Nat.mul_le_mul_right _ hlen)

end SorobanRentKeeper
