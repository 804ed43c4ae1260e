import SorobanRentKeeper.Framework.Program

/-! Programs that do the same, unless the first of them stops. -/

namespace Program

variable {ε ε' σ ι α β : Type} {log : σ → List ι} {stop : ε → σ → Prop} {P : σ → Prop}

/-- The second program only appends to its log. From a state that satisfies `P` the first does what
the second does, and that ends as `Q` and `E` say; or the first stops, and what it has logged is the
beginning of what the second logs. -/
structure Agrees (log : σ → List ι) (stop : ε → σ → Prop) (P : σ → Prop) (x y : EStateM ε σ α)
    (Q : α → σ → Prop) (E : σ → Prop) : Prop where
  appends : ∀ s, log s <+: log (final (y s))
  run : ∀ s, P s → (x s = y s ∧ Spec y s Q fun _ => E) ∨
    ∃ e t, x s = .error e t ∧ stop e t ∧ log t <+: log (final (y s))

theorem agrees_refl {x : EStateM ε σ α} {Q : α → σ → Prop} {E : σ → Prop}
    (hlog : ∀ s, log s <+: log (final (x s))) (h : ∀ s, P s → Spec x s Q fun _ => E) :
    Agrees log stop P x x Q E :=
  ⟨hlog,fun s hs => .inl ⟨rfl,h s hs⟩⟩

theorem Agrees.mono {x y : EStateM ε σ α} {Q Q' : α → σ → Prop} {E E' : σ → Prop}
    (h : Agrees log stop P x y Q E) (hQ : ∀ a t, Q a t → Q' a t) (hE : ∀ t, E t → E' t) :
    Agrees log stop P x y Q' E' := by
  refine ⟨h.appends,?_⟩
  intro s hs
  apply (h.run s hs).imp_left
  intro hsame
  exact ⟨hsame.1,hsame.2.mono hQ fun _ => hE⟩

theorem bind_congr_start {x y : EStateM ε σ α} {s : σ} (f : α → EStateM ε σ β)
    (h : x s = y s) : (x >>= f) s = (y >>= f) s := by
  change EStateM.bind x f s = EStateM.bind y f s
  unfold EStateM.bind
  rw [h]

theorem appends_bind {x : EStateM ε σ α} {f : α → EStateM ε σ β} {s : σ}
    (hf : ∀ a t, log t <+: log (final (f a t))) :
    log (final (x s)) <+: log (final ((x >>= f) s)) := by
  have hlater (a : α) (t : σ) : ∃ d, log (final (f a t)) = log t ++ d := by
    obtain ⟨d,hd⟩ := hf a t
    exact ⟨d,hd.symm⟩
  obtain ⟨d,hd⟩ := log_final_bind (x := x) (s := s) hlater
  exact ⟨d,hd.symm⟩

theorem Agrees.bind {x y : EStateM ε σ α} {f g : α → EStateM ε σ β} {Q : α → σ → Prop}
    {R : β → σ → Prop} {E : σ → Prop} (h : Agrees log stop P x y Q E)
    (hf : ∀ a, Agrees log stop (Q a) (f a) (g a) R E) :
    Agrees log stop P (x >>= f) (y >>= g) R E := by
  have hlater (s : σ) : log (final (y s)) <+: log (final ((y >>= g) s)) :=
    appends_bind fun a => (hf a).appends
  refine ⟨fun s => (h.appends s).trans (hlater s),?_⟩
  intro s hs
  rcases h.run s hs with ⟨hsame,hspec⟩|⟨e,t,hx,hstop,hlog⟩
  · cases hy : y s with
    | ok a t =>
      rw [bind_of_ok f (hsame.trans hy),bind_of_ok g hy,spec_bind]
      rcases (hf a).run t (spec_of_ok hspec hy) with ⟨hnext,hlast⟩|hstops
      · refine .inl ⟨hnext,?_⟩
        unfold Spec
        rw [hy]
        exact hlast
      · exact .inr hstops
    | error e t =>
      rw [bind_of_error f (hsame.trans hy),bind_of_error g hy,spec_bind]
      refine .inl ⟨rfl,?_⟩
      have herror : E t := spec_of_error hspec hy
      unfold Spec
      rw [hy]
      exact herror
  · exact .inr ⟨e,t,bind_of_error f hx,hstop,hlog.trans (hlater s)⟩

/-- Loop rule: `I i` holds before the `i`-th round. -/
theorem Agrees.foldlM {f g : β → α → EStateM ε σ β} {I : Nat → σ → Prop} {E : σ → Prop}
    (as : List α) (hf : ∀ i b a, i < as.length → Agrees log stop (I i) (f b a) (g b a)
      (fun _ => I (i + 1)) E) (b : β) :
    Agrees log stop (I 0) (as.foldlM f b) (as.foldlM g b) (fun _ => I as.length) E := by
  induction as generalizing I b with
  | nil => exact agrees_refl (fun s => ⟨[],List.append_nil _⟩) fun _ hs => hs
  | cons a as ih =>
    rw [List.foldlM_cons,List.foldlM_cons]
    refine (hf 0 b a (Nat.succ_pos _)).bind ?_
    intro b'
    apply ih (I := fun i => I (i + 1))
    intro i c a' hi
    exact hf (i + 1) c a' (Nat.succ_lt_succ hi)

theorem Traced.appends {x : EStateM ε σ α} {s : σ} {Q : α → List ι → σ → Prop}
    {E : ε → List ι → σ → Prop} (h : Traced log x s Q E) : log s <+: log (final (x s)) := by
  obtain ⟨d,hd,_⟩ := h.cases
  exact ⟨d,hd.symm⟩

theorem appends_ofExcept (x : Except ε α) (s : σ) :
    log s <+: log (final ((ofExcept x : EStateM ε σ α) s)) := by
  cases x with
  | ok a => exact ⟨[],List.append_nil _⟩
  | error e => exact ⟨[],List.append_nil _⟩

/-- A failure that is put in other words is still that failure. -/
theorem adaptExcept_bind (w : ε → ε') (x : EStateM ε σ α) (f : α → EStateM ε σ β) :
    EStateM.adaptExcept w (x >>= f) =
      EStateM.adaptExcept w x >>= fun a => EStateM.adaptExcept w (f a) := by
  funext s
  change _ = EStateM.bind _ _ s
  unfold EStateM.bind EStateM.adaptExcept
  cases hx : x s with
  | ok a t => rw [bind_of_ok f hx]
  | error e t => rw [bind_of_error f hx]

theorem adaptExcept_foldlM (w : ε → ε') (f : β → α → EStateM ε σ β) (as : List α) (b : β) :
    EStateM.adaptExcept w (as.foldlM f b) =
      as.foldlM (fun b a => EStateM.adaptExcept w (f b a)) b := by
  induction as generalizing b with
  | nil => rfl
  | cons a as ih =>
    rw [List.foldlM_cons,List.foldlM_cons,adaptExcept_bind]
    simp only [ih]

theorem adaptExcept_ofExcept (w : ε → ε') (x : Except ε α) :
    EStateM.adaptExcept w (ofExcept x : EStateM ε σ α) = ofExcept (x.mapError w) := by
  cases x <;> rfl

theorem agrees_pure {stop : ε' → σ → Prop} (w : ε → ε') (a : α) {Q : α → σ → Prop}
    {E : σ → Prop} (h : ∀ s, P s → Q a s) :
    Agrees log stop P (pure a) (EStateM.adaptExcept w (pure a)) Q E :=
  ⟨fun _ => ⟨[],List.append_nil _⟩,fun s hs => .inl ⟨rfl,h s hs⟩⟩

theorem agrees_throw {stop : ε' → σ → Prop} (w : ε → ε') (e : ε) {Q : α → σ → Prop}
    {E : σ → Prop} (h : ∀ s, P s → E s) :
    Agrees log stop P (throw (w e)) (EStateM.adaptExcept w (throw e)) Q E :=
  ⟨fun _ => ⟨[],List.append_nil _⟩,fun s hs => .inl ⟨rfl,h s hs⟩⟩

end Program
