import SorobanRentKeeper.Framework.Lts
import SorobanRentKeeper.Framework.Program

/-! Programs whose log is a run of a transition system. -/

namespace Program

variable {ε ε' σ ι α β S : Type}

/-- However it ends, what a program appends to its log is a run of the system, from what is seen of
the state it starts in to what is seen of the state it leaves. -/
def Follows (log : σ → List ι) (view : σ → S) (step : S → ι → S → Prop) (x : EStateM ε σ α) :
    Prop :=
  ∀ s, Traced log x s (fun _ d t => Lts.Run step (view s) d (view t))
    (fun _ d t => Lts.Run step (view s) d (view t))

variable {log : σ → List ι} {view : σ → S} {step : S → ι → S → Prop}

theorem follows_pure (a : α) : Follows log view step (pure a : EStateM ε σ α) :=
  fun _ => traced_pure (.nil _)

theorem follows_throw (e : ε) : Follows log view step (throw e : EStateM ε σ α) :=
  fun _ => traced_throw (.nil _)

theorem follows_ofExcept (x : Except ε α) :
    Follows log view step (ofExcept x : EStateM ε σ α) := by
  cases x with
  | ok a => exact follows_pure a
  | error e => exact follows_throw e

theorem follows_get : Follows log view step (get : EStateM ε σ σ) :=
  fun _ => ⟨[],(List.append_nil _).symm,.nil _⟩

/-- An update of what is not seen. -/
theorem follows_modify {f : σ → σ} (hlog : ∀ s, log (f s) = log s)
    (hview : ∀ s, view (f s) = view s) :
    Follows log view step (modify f : EStateM ε σ PUnit) := by
  intro s
  apply traced_modify (hlog s)
  rw [hview]
  exact .nil _

theorem Follows.bind {x : EStateM ε σ α} {f : α → EStateM ε σ β} (hx : Follows log view step x)
    (hf : ∀ a, Follows log view step (f a)) : Follows log view step (x >>= f) := by
  intro s
  refine Traced.bind (hx s) ?_ (fun _ _ _ h => h)
  intro a d t h
  exact Traced.mono (hf a t) (fun _ _ _ h' => h.append h') (fun _ _ _ h' => h.append h')

theorem Follows.attempt {x : EStateM ε σ α} (hx : Follows log view step x) :
    Follows log view step (Program.attempt x : EStateM ε' σ (Except ε α)) :=
  fun s => Traced.attempt (hx s)

theorem Follows.adaptExcept (f : ε → ε') {x : EStateM ε σ α} (hx : Follows log view step x) :
    Follows log view step (EStateM.adaptExcept f x) := by
  intro s
  refine Traced.mono (Traced.adaptExcept f (hx s)) (fun _ _ _ h => h) ?_
  intro _ d t h
  obtain ⟨_,h,_⟩ := h
  exact h

theorem Follows.foldlM {f : β → α → EStateM ε σ β} (hf : ∀ b a, Follows log view step (f b a))
    (as : List α) (b : β) : Follows log view step (as.foldlM f b) := by
  induction as generalizing b with
  | nil => exact follows_pure b
  | cons a as ih =>
    rw [List.foldlM_cons]
    exact (hf b a).bind ih

end Program
