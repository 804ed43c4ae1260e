import Mathlib.Logic.Function.Basic
import Mathlib.Logic.Relation

namespace Critical

variable {Task Q L S E R : Type}

/-- Code whose calls share an `S` behind one lock. A call returns at once, or has to take the lock
and then works from place to place; a place with a result gives the lock back. -/
structure Code (Q L S E R : Type) where
  enter : Q → R ⊕ L
  work : L → S → E → Option (L × S)
  result : L → Option R

/-- A call that has returned: what it did under the lock, and the shared value it came upon and
left. -/
structure Call (Task Q S E R : Type) where
  task : Task
  request : Q
  before : S
  deeds : List E
  result : R
  after : S

inductive Phase (Q L S E : Type) where
  | idle
  | waiting (request : Q) (place : L)
  | inside (request : Q) (before : S) (deeds : List E) (place : L)

/-- The calls of `history` stand in the order in which they returned. -/
structure State (Task Q L S E R : Type) where
  shared : S
  holder : Option Task
  phase : Task → Phase Q L S E
  history : List (Call Task Q S E R)

def start (s : S) : State Task Q L S E R := ⟨s,none,fun _ => .idle,[]⟩

/-- One step of one task. Nothing but the lock orders the tasks. -/
inductive Step [DecidableEq Task] (code : Code Q L S E R) (m : State Task Q L S E R) :
    State Task Q L S E R → Prop where
  | atOnce (t : Task) (q : Q) (r : R) (hidle : m.phase t = .idle) (henter : code.enter q = .inl r) :
      Step code m { m with history := m.history ++ [⟨t,q,m.shared,[],r,m.shared⟩] }
  | call (t : Task) (q : Q) (l : L) (hidle : m.phase t = .idle) (henter : code.enter q = .inr l) :
      Step code m { m with phase := Function.update m.phase t (.waiting q l) }
  | lock (t : Task) (q : Q) (l : L) (hwait : m.phase t = .waiting q l) (hfree : m.holder = none) :
      Step code m { m with
        holder := some t
        phase := Function.update m.phase t (.inside q m.shared [] l) }
  | work (t : Task) (q : Q) (b : S) (d : List E) (l : L) (e : E) (l' : L) (s' : S)
      (hinside : m.phase t = .inside q b d l) (hwork : code.work l m.shared e = some (l',s')) :
      Step code m { m with
        shared := s'
        phase := Function.update m.phase t (.inside q b (d ++ [e]) l') }
  | unlock (t : Task) (q : Q) (b : S) (d : List E) (l : L) (r : R)
      (hinside : m.phase t = .inside q b d l) (hresult : code.result l = some r) :
      Step code m { m with
        holder := none
        phase := Function.update m.phase t .idle
        history := m.history ++ [⟨t,q,b,d,r,m.shared⟩] }

/-- What any interleaving of any calls leads to. -/
def Reachable [DecidableEq Task] (code : Code Q L S E R) (s : S)
    (m : State Task Q L S E R) : Prop :=
  Relation.ReflTransGen (Step code) (start s) m

namespace Code

/-- Work done by one task alone. -/
def runs (code : Code Q L S E R) : L → S → List E → Option (L × S)
  | l,s,[] => some (l,s)
  | l,s,e::es =>
    match code.work l s e with
    | some (l,s) => runs code l s es
    | none => none

theorem runs_append (code : Code Q L S E R) (l m : L) (s t : S) (es ds : List E)
    (h : code.runs l s es = some (m,t)) : code.runs l s (es ++ ds) = code.runs m t ds := by
  induction es generalizing l s with
  | nil =>
    obtain ⟨rfl,rfl⟩ := Prod.mk.inj (Option.some.inj h)
    rfl
  | cons x es ih =>
    simp only [runs] at h
    cases hx : code.work l s x with
    | none =>
      rw [hx] at h
      cases h
    | some p =>
      rw [hx] at h
      simp only [List.cons_append,runs,hx]
      exact ih p.1 p.2 h

theorem runs_snoc (code : Code Q L S E R) (l m n : L) (s t u : S) (es : List E) (e : E)
    (h : code.runs l s es = some (m,t)) (hwork : code.work m t e = some (n,u)) :
    code.runs l s (es ++ [e]) = some (n,u) := by
  rw [code.runs_append l m s t es [e] h]
  simp only [runs,hwork]

/-- Calls made one after the other. Only a call that takes the lock reads the value the last one
left; one that returned at once may have come while the lock was taken. -/
inductive Serial (code : Code Q L S E R) : S → List (Call Task Q S E R) → S → Prop where
  | nil (s : S) : Serial code s [] s
  | atOnce (s u : S) (c : Call Task Q S E R) (rest : List (Call Task Q S E R))
      (henter : code.enter c.request = .inl c.result) (hdeeds : c.deeds = [])
      (hsame : c.after = c.before) (hrest : Serial code s rest u) : Serial code s (c::rest) u
  | locked (s u : S) (c : Call Task Q S E R) (rest : List (Call Task Q S E R)) (l l' : L)
      (hbefore : c.before = s) (henter : code.enter c.request = .inr l)
      (hruns : code.runs l s c.deeds = some (l',c.after)) (hresult : code.result l' = some c.result)
      (hrest : Serial code c.after rest u) : Serial code s (c::rest) u

theorem Serial.append {code : Code Q L S E R} {s t u : S} {xs ys : List (Call Task Q S E R)}
    (h : Serial code s xs t) (h' : Serial code t ys u) : Serial code s (xs ++ ys) u := by
  induction h with
  | nil s => exact h'
  | atOnce s u c rest henter hdeeds hsame _ ih => exact .atOnce s _ c _ henter hdeeds hsame (ih h')
  | locked s u c rest l l' hbefore henter hruns hresult _ ih =>
    exact .locked s _ c _ l l' hbefore henter hruns hresult (ih h')

theorem Serial.split {code : Code Q L S E R} {s u : S} {xs ys : List (Call Task Q S E R)}
    (h : Serial code s (xs ++ ys) u) : ∃ t, Serial code s xs t ∧ Serial code t ys u := by
  induction xs generalizing s with
  | nil => exact ⟨s,.nil s,h⟩
  | cons c xs ih =>
    cases h with
    | atOnce _ _ _ _ henter hdeeds hsame hrest =>
      obtain ⟨t,hxs,hys⟩ := ih hrest
      exact ⟨t,.atOnce s t c xs henter hdeeds hsame hxs,hys⟩
    | locked _ _ _ _ l l' hbefore henter hruns hresult hrest =>
      obtain ⟨t,hxs,hys⟩ := ih hrest
      exact ⟨t,.locked s t c xs l l' hbefore henter hruns hresult hxs,hys⟩

end Code

/-- The lock keeps one task inside, which works on what the calls before it left. -/
structure Invariant (code : Code Q L S E R) (s : S) (m : State Task Q L S E R) : Prop where
  queued : ∀ t q l, m.phase t = .waiting q l → code.enter q = .inr l
  holds : ∀ t q b d l, m.phase t = .inside q b d l → m.holder = some t
  free : m.holder = none → code.Serial s m.history m.shared
  taken : ∀ t, m.holder = some t → ∃ q b d l l₀, m.phase t = .inside q b d l ∧
    code.enter q = .inr l₀ ∧ code.runs l₀ b d = some (l,m.shared) ∧ code.Serial s m.history b

theorem invariant_start (code : Code Q L S E R) (s : S) :
    Invariant code s (start s : State Task Q L S E R) := by
  constructor
  · intro t q l h
    cases h
  · intro t q b d l h
    cases h
  · intro _
    exact .nil s
  · intro t h
    cases h

section Preserved

variable {code : Code Q L S E R} {s : S} {m m' : State Task Q L S E R}

/-- A task that waits or idles does not have the lock. -/
private theorem Invariant.not_holder (h : Invariant code s m) {t : Task}
    (hout : ∀ q b d l, m.phase t ≠ .inside q b d l) : m.holder ≠ some t := by
  intro hholder
  obtain ⟨q,b,d,l,_,hinside,_⟩ := h.taken t hholder
  exact hout q b d l hinside

/-- A call that returns at once goes behind the others, whoever has the lock. -/
private theorem Invariant.atOnce (h : Invariant code s m) (t : Task) (q : Q) (r : R)
    (henter : code.enter q = .inl r) :
    Invariant code s { m with history := m.history ++ [⟨t,q,m.shared,[],r,m.shared⟩] } := by
  have hlast (x y : S) : code.Serial x [(⟨t,q,y,[],r,y⟩ : Call Task Q S E R)] x :=
    .atOnce x x _ [] henter rfl rfl (.nil x)
  constructor
  · exact h.queued
  · exact h.holds
  · intro hfree
    exact (h.free hfree).append (hlast m.shared m.shared)
  · intro t' hholder
    obtain ⟨q',b,d,l,l₀,hinside,henter',hruns,hserial⟩ := h.taken t' hholder
    exact ⟨q',b,d,l,l₀,hinside,henter',hruns,hserial.append (hlast b m.shared)⟩

variable [DecidableEq Task]

private theorem Invariant.call (h : Invariant code s m) (t : Task) (q : Q) (l : L)
    (hidle : m.phase t = .idle) (henter : code.enter q = .inr l) :
    Invariant code s { m with phase := Function.update m.phase t (.waiting q l) } := by
  have hout := h.not_holder (t := t) (by simp [hidle])
  constructor
  · intro t' q' l' hphase
    by_cases ht : t' = t
    · subst ht
      simp only [Function.update_self,Phase.waiting.injEq] at hphase
      rw [← hphase.1,← hphase.2]
      exact henter
    · exact h.queued t' q' l' (by simpa [ht] using hphase)
  · intro t' q' b d l' hphase
    by_cases ht : t' = t
    · subst ht
      simp at hphase
    · exact h.holds t' q' b d l' (by simpa [ht] using hphase)
  · exact h.free
  · intro t' hholder
    have ht : t' ≠ t := by
      intro ht
      exact hout (ht ▸ hholder)
    obtain ⟨q',b,d,l',l₀,hinside,hrest⟩ := h.taken t' hholder
    exact ⟨q',b,d,l',l₀,by simpa [ht] using hinside,hrest⟩

private theorem Invariant.lock (h : Invariant code s m) (t : Task) (q : Q) (l : L)
    (hwait : m.phase t = .waiting q l) (hfree : m.holder = none) :
    Invariant code s { m with
      holder := some t
      phase := Function.update m.phase t (.inside q m.shared [] l) } := by
  constructor
  · intro t' q' l' hphase
    by_cases ht : t' = t
    · subst ht
      simp at hphase
    · exact h.queued t' q' l' (by simpa [ht] using hphase)
  · intro t' q' b d l' hphase
    by_cases ht : t' = t
    · rw [ht]
    · have hholder := h.holds t' q' b d l' (by simpa [ht] using hphase)
      rw [hfree] at hholder
      cases hholder
  · intro hnone
    cases hnone
  · intro t' hholder
    cases hholder
    exact ⟨q,m.shared,[],l,l,by simp,h.queued t q l hwait,rfl,h.free hfree⟩

private theorem Invariant.work (h : Invariant code s m) (t : Task) (q : Q) (b : S) (d : List E)
    (l : L) (e : E) (l' : L) (s' : S) (hinside : m.phase t = .inside q b d l)
    (hwork : code.work l m.shared e = some (l',s')) :
    Invariant code s { m with
      shared := s'
      phase := Function.update m.phase t (.inside q b (d ++ [e]) l') } := by
  have hholder := h.holds t q b d l hinside
  constructor
  · intro t' q' l'' hphase
    by_cases ht : t' = t
    · subst ht
      simp at hphase
    · exact h.queued t' q' l'' (by simpa [ht] using hphase)
  · intro t' q' b' d' l'' hphase
    by_cases ht : t' = t
    · rw [ht]
      exact hholder
    · exact h.holds t' q' b' d' l'' (by simpa [ht] using hphase)
  · intro hnone
    rw [hholder] at hnone
    cases hnone
  · intro t' hholder'
    have ht : t' = t := Option.some.inj (hholder'.symm.trans hholder)
    subst ht
    obtain ⟨q₁,b₁,d₁,l₁,l₀,hinside₁,henter,hruns,hserial⟩ := h.taken t' hholder
    rw [hinside] at hinside₁
    cases hinside₁
    exact ⟨q,b,d ++ [e],l',l₀,by simp,henter,code.runs_snoc l₀ l l' b m.shared s' d e hruns hwork,
      hserial⟩

private theorem Invariant.unlock (h : Invariant code s m) (t : Task) (q : Q) (b : S) (d : List E)
    (l : L) (r : R) (hinside : m.phase t = .inside q b d l) (hresult : code.result l = some r) :
    Invariant code s { m with
      holder := none
      phase := Function.update m.phase t .idle
      history := m.history ++ [⟨t,q,b,d,r,m.shared⟩] } := by
  have hholder := h.holds t q b d l hinside
  constructor
  · intro t' q' l' hphase
    by_cases ht : t' = t
    · subst ht
      simp at hphase
    · exact h.queued t' q' l' (by simpa [ht] using hphase)
  · intro t' q' b' d' l' hphase
    by_cases ht : t' = t
    · subst ht
      simp at hphase
    · -- the lock had one holder
      have hholder' := h.holds t' q' b' d' l' (by simpa [ht] using hphase)
      rw [hholder] at hholder'
      exact absurd (Option.some.inj hholder').symm ht
  · intro _
    obtain ⟨q₁,b₁,d₁,l₁,l₀,hinside₁,henter,hruns,hserial⟩ := h.taken t hholder
    rw [hinside] at hinside₁
    cases hinside₁
    exact hserial.append (.locked b m.shared _ [] l₀ l rfl henter hruns hresult (.nil _))
  · intro t' hsome
    cases hsome

theorem Invariant.step (h : Invariant code s m) (hstep : Step code m m') : Invariant code s m' := by
  cases hstep with
  | atOnce t q r hidle henter => exact h.atOnce t q r henter
  | call t q l hidle henter => exact h.call t q l hidle henter
  | lock t q l hwait hfree => exact h.lock t q l hwait hfree
  | work t q b d l e l' s' hinside hwork => exact h.work t q b d l e l' s' hinside hwork
  | unlock t q b d l r hinside hresult => exact h.unlock t q b d l r hinside hresult

theorem Reachable.step (h : Reachable code s m) (hstep : Step code m m') : Reachable code s m' :=
  .tail h hstep

theorem Reachable.invariant (h : Reachable code s m) : Invariant code s m := by
  induction h with
  | refl => exact invariant_start code s
  | tail _ hstep ih => exact ih.step hstep

/-- The task inside finishes by itself, if its code does. -/
theorem finish {t : Task} {q : Q} {b : S} {d es : List E} {l l' : L} {s' : S} {r : R}
    (hinside : m.phase t = .inside q b d l) (hruns : code.runs l m.shared es = some (l',s'))
    (hresult : code.result l' = some r) :
    Relation.ReflTransGen (Step code) m ⟨s',none,Function.update m.phase t .idle,
      m.history ++ [⟨t,q,b,d ++ es,r,s'⟩]⟩ := by
  induction es generalizing m d l with
  | nil =>
    obtain ⟨rfl,rfl⟩ := Prod.mk.inj (Option.some.inj hruns)
    rw [List.append_nil]
    exact .single (.unlock t q b d l r hinside hresult)
  | cons e es ih =>
    simp only [Code.runs] at hruns
    cases hwork : code.work l m.shared e with
    | none =>
      rw [hwork] at hruns
      cases hruns
    | some p =>
      rw [hwork] at hruns
      have hstep := Step.work t q b d l e p.1 p.2 hinside hwork
      let worked : State Task Q L S E R := { m with
        shared := p.2
        phase := Function.update m.phase t (.inside q b (d ++ [e]) p.1) }
      have hrest := ih (m := worked) (Function.update_self t _ m.phase) hruns
      rw [Function.update_idem,List.append_assoc] at hrest
      exact .head hstep hrest

/-- However the tasks interleave, their calls return what they would one after the other. -/
theorem Reachable.serial (h : Reachable code s m) : ∃ u, code.Serial s m.history u := by
  have hinv := h.invariant
  cases hholder : m.holder with
  | none => exact ⟨m.shared,hinv.free hholder⟩
  | some t =>
    obtain ⟨_,b,_,_,_,_,_,_,hserial⟩ := hinv.taken t hholder
    exact ⟨b,hserial⟩

end Preserved

end Critical
