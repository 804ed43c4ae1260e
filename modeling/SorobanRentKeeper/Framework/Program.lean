import Mathlib.Data.List.Basic
import Mathlib.Data.List.Forall2

namespace Program

variable {ε ε' σ ι α β : Type}

/-- Run `x` from `s`: a value satisfies `Q` together with the state it leaves, and a failure
satisfies `E` together with the state it leaves. A failure does not roll the state back. -/
def Spec (x : EStateM ε σ α) (s : σ) (Q : α → σ → Prop) (E : ε → σ → Prop) : Prop :=
  match x s with
  | .ok a t => Q a t
  | .error e t => E e t

/-- The failure of a program as a value, in the state the failure left. -/
def attempt (x : EStateM ε σ α) : EStateM ε' σ (Except ε α) := fun s =>
  match x s with
  | .ok a t => .ok (.ok a) t
  | .error e t => .ok (.error e) t

/-- A pure fallible computation as a program that leaves the state alone. -/
def ofExcept (x : Except ε α) : EStateM ε σ α :=
  match x with
  | .ok a => pure a
  | .error e => throw e

@[simp] theorem ofExcept_ok (a : α) : (ofExcept (.ok a) : EStateM ε σ α) = pure a := rfl

@[simp] theorem ofExcept_error (e : ε) : (ofExcept (.error e) : EStateM ε σ α) = throw e := rfl

theorem spec_of_ok {x : EStateM ε σ α} {s t : σ} {a : α} {Q : α → σ → Prop} {E : ε → σ → Prop}
    (h : Spec x s Q E) (hx : x s = .ok a t) : Q a t := by
  unfold Spec at h
  rwa [hx] at h

theorem spec_of_error {x : EStateM ε σ α} {s t : σ} {e : ε} {Q : α → σ → Prop}
    {E : ε → σ → Prop} (h : Spec x s Q E) (hx : x s = .error e t) : E e t := by
  unfold Spec at h
  rwa [hx] at h

theorem bind_of_ok {x : EStateM ε σ α} {s t : σ} {a : α} (f : α → EStateM ε σ β)
    (h : x s = .ok a t) : (x >>= f) s = f a t := by
  change EStateM.bind x f s = f a t
  unfold EStateM.bind
  rw [h]

/-- What follows matters only where the first part arrives. -/
theorem bind_congr_run {x : EStateM ε σ α} {f g : α → EStateM ε σ β} {s : σ}
    (h : ∀ a t, x s = .ok a t → f a t = g a t) : (x >>= f) s = (x >>= g) s := by
  cases hx : x s with
  | ok a t => rw [bind_of_ok f hx,bind_of_ok g hx,h a t hx]
  | error e t =>
    change EStateM.bind x f s = EStateM.bind x g s
    unfold EStateM.bind
    rw [hx]

/-- A run that ended well, taken apart. -/
theorem run_bind {x : EStateM ε σ α} {f : α → EStateM ε σ β} {s u : σ} {b : β}
    (h : (x >>= f) s = .ok b u) : ∃ a t, x s = .ok a t ∧ f a t = .ok b u := by
  change EStateM.bind x f s = .ok b u at h
  unfold EStateM.bind at h
  cases hx : x s with
  | ok a t => exact ⟨a,t,rfl,by rwa [hx] at h⟩
  | error e t =>
    rw [hx] at h
    cases h

theorem run_ofExcept {x : Except ε α} {s t : σ} {a : α}
    (h : (ofExcept x : EStateM ε σ α) s = .ok a t) : x = .ok a ∧ t = s := by
  cases x with
  | ok b =>
    cases h
    exact ⟨rfl,rfl⟩
  | error e => cases h

theorem get_bind (f : σ → EStateM ε σ β) (s : σ) : (get >>= f) s = f s s := rfl

theorem bind_of_error {x : EStateM ε σ α} {s t : σ} {e : ε} (f : α → EStateM ε σ β)
    (h : x s = .error e t) : (x >>= f) s = .error e t := by
  change EStateM.bind x f s = .error e t
  unfold EStateM.bind
  rw [h]

theorem Spec.mono {x : EStateM ε σ α} {s : σ} {Q Q' : α → σ → Prop} {E E' : ε → σ → Prop}
    (h : Spec x s Q E) (hQ : ∀ a t, Q a t → Q' a t) (hE : ∀ e t, E e t → E' e t) :
    Spec x s Q' E' := by
  unfold Spec at h ⊢
  cases hx : x s with
  | ok a t => rw [hx] at h; exact hQ a t h
  | error e t => rw [hx] at h; exact hE e t h

@[simp] theorem spec_pure (a : α) (s : σ) (Q : α → σ → Prop) (E : ε → σ → Prop) :
    Spec (pure a : EStateM ε σ α) s Q E ↔ Q a s := Iff.rfl

@[simp] theorem spec_throw (e : ε) (s : σ) (Q : α → σ → Prop) (E : ε → σ → Prop) :
    Spec (throw e : EStateM ε σ α) s Q E ↔ E e s := Iff.rfl

@[simp] theorem spec_bind (x : EStateM ε σ α) (f : α → EStateM ε σ β) (s : σ)
    (Q : β → σ → Prop) (E : ε → σ → Prop) :
    Spec (x >>= f) s Q E ↔ Spec x s (fun a t => Spec (f a) t Q E) E := by
  unfold Spec
  change (match EStateM.bind x f s with | .ok a t => Q a t | .error e t => E e t) ↔ _
  unfold EStateM.bind
  cases x s <;> rfl

@[simp] theorem spec_modify (f : σ → σ) (s : σ) (Q : PUnit → σ → Prop) (E : ε → σ → Prop) :
    Spec (modify f : EStateM ε σ PUnit) s Q E ↔ Q ⟨⟩ (f s) := Iff.rfl

@[simp] theorem spec_get (s : σ) (Q : σ → σ → Prop) (E : ε → σ → Prop) :
    Spec (get : EStateM ε σ σ) s Q E ↔ Q s s := Iff.rfl

@[simp] theorem spec_set (s' s : σ) (Q : PUnit → σ → Prop) (E : ε → σ → Prop) :
    Spec (set s' : EStateM ε σ PUnit) s Q E ↔ Q ⟨⟩ s' := Iff.rfl

/-- A pure step in front: what follows starts from the same state. -/
theorem spec_ofExcept_bind {x : Except ε α} {f : α → EStateM ε σ β} {s : σ} {Q : β → σ → Prop}
    {E : ε → σ → Prop} (hf : ∀ a, x = .ok a → Spec (f a) s Q E) (hE : ∀ e, x = .error e → E e s) :
    Spec (ofExcept x >>= f) s Q E := by
  cases x with
  | ok a => exact hf a rfl
  | error e => exact hE e rfl

@[simp] theorem spec_attempt (x : EStateM ε σ α) (s : σ) (Q : Except ε α → σ → Prop)
    (E : ε' → σ → Prop) :
    Spec (attempt x) s Q E ↔ Spec x s (fun a => Q (.ok a)) (fun e => Q (.error e)) := by
  unfold Spec attempt
  cases x s <;> rfl

@[simp] theorem spec_adaptExcept (f : ε → ε') (x : EStateM ε σ α) (s : σ) (Q : α → σ → Prop)
    (E : ε' → σ → Prop) :
    Spec (EStateM.adaptExcept f x) s Q E ↔ Spec x s Q (fun e => E (f e)) := by
  unfold Spec EStateM.adaptExcept
  cases x s <;> rfl

/-- A program over a state that keeps a log: it only appends, and what it appended is
described together with its result. -/
def Traced (log : σ → List ι) (x : EStateM ε σ α) (s : σ)
    (Q : α → List ι → σ → Prop) (E : ε → List ι → σ → Prop) : Prop :=
  Spec x s (fun a t => ∃ d, log t = log s ++ d ∧ Q a d t)
    (fun e t => ∃ d, log t = log s ++ d ∧ E e d t)

theorem Traced.mono {log : σ → List ι} {x : EStateM ε σ α} {s : σ}
    {Q Q' : α → List ι → σ → Prop} {E E' : ε → List ι → σ → Prop} (h : Traced log x s Q E)
    (hQ : ∀ a d t, Q a d t → Q' a d t) (hE : ∀ e d t, E e d t → E' e d t) :
    Traced log x s Q' E' := by
  refine Spec.mono h ?_ ?_
  · intro a t h
    obtain ⟨d,hd,hq⟩ := h
    exact ⟨d,hd,hQ a d t hq⟩
  · intro e t h
    obtain ⟨d,hd,he⟩ := h
    exact ⟨d,hd,hE e d t he⟩

/-- What two accounts of one run say of it is said of the same part of the log. -/
theorem Traced.and {log : σ → List ι} {x : EStateM ε σ α} {s : σ}
    {Q Q' : α → List ι → σ → Prop} {E E' : ε → List ι → σ → Prop} (h : Traced log x s Q E)
    (h' : Traced log x s Q' E') :
    Traced log x s (fun a d t => Q a d t ∧ Q' a d t) (fun e d t => E e d t ∧ E' e d t) := by
  unfold Traced Spec at h h' ⊢
  cases hx : x s with
  | ok a t =>
    rw [hx] at h h'
    obtain ⟨d,hd,hq⟩ := h
    obtain ⟨d',hd',hq'⟩ := h'
    have hsame : d' = d := List.append_cancel_left (hd'.symm.trans hd)
    exact ⟨d,hd,hq,hsame ▸ hq'⟩
  | error e t =>
    rw [hx] at h h'
    obtain ⟨d,hd,he⟩ := h
    obtain ⟨d',hd',he'⟩ := h'
    have hsame : d' = d := List.append_cancel_left (hd'.symm.trans hd)
    exact ⟨d,hd,he,hsame ▸ he'⟩

theorem Traced.ok {log : σ → List ι} {x : EStateM ε σ α} {s t : σ} {a : α}
    {Q : α → List ι → σ → Prop} {E : ε → List ι → σ → Prop} (h : Traced log x s Q E)
    (hx : x s = .ok a t) : ∃ d, log t = log s ++ d ∧ Q a d t :=
  spec_of_ok h hx

theorem Traced.error {log : σ → List ι} {x : EStateM ε σ α} {s t : σ} {e : ε}
    {Q : α → List ι → σ → Prop} {E : ε → List ι → σ → Prop} (h : Traced log x s Q E)
    (hx : x s = .error e t) : ∃ d, log t = log s ++ d ∧ E e d t :=
  spec_of_error h hx

/-- The state a run leaves, however it ends. -/
def final : EStateM.Result ε σ α → σ
  | .ok _ t => t
  | .error _ t => t

/-- The state a run leaves, if it ends well. -/
def outcome : EStateM.Result ε σ α → Except ε σ
  | .ok _ t => .ok t
  | .error e _ => .error e

/-- The value a run returns, if it does. -/
def value : EStateM.Result ε σ α → Option α
  | .ok a _ => some a
  | .error _ _ => none

theorem eq_ok_of_value {r : EStateM.Result ε σ α} {a : α} (h : value r = some a) :
    r = .ok a (final r) := by
  cases r with
  | ok b t =>
    cases Option.some.inj h
    rfl
  | error e t => cases h

theorem Traced.cases {log : σ → List ι} {x : EStateM ε σ α} {s : σ}
    {Q : α → List ι → σ → Prop} {E : ε → List ι → σ → Prop} (h : Traced log x s Q E) :
    ∃ d, log (final (x s)) = log s ++ d ∧
      ((∃ a t, x s = .ok a t ∧ Q a d t) ∨ ∃ e t, x s = .error e t ∧ E e d t) := by
  cases hx : x s with
  | ok a t =>
    obtain ⟨d,hd,hq⟩ := h.ok hx
    exact ⟨d,hd,.inl ⟨a,t,rfl,hq⟩⟩
  | error e t =>
    obtain ⟨d,hd,he⟩ := h.error hx
    exact ⟨d,hd,.inr ⟨e,t,rfl,he⟩⟩

/-- What runs after a program adds to the log the program left. -/
theorem log_final_bind {log : σ → List ι} {x : EStateM ε σ α} {f : α → EStateM ε σ β} {s : σ}
    (hf : ∀ a t, ∃ d, log (final (f a t)) = log t ++ d) :
    ∃ d, log (final ((x >>= f) s)) = log (final (x s)) ++ d := by
  cases hx : x s with
  | ok a t =>
    rw [bind_of_ok f hx]
    exact hf a t
  | error e t =>
    rw [bind_of_error f hx]
    exact ⟨[],(List.append_nil _).symm⟩

theorem attempt_of_error {x : EStateM ε σ α} {s t : σ} {e : ε} (h : x s = .error e t) :
    (attempt x : EStateM ε' σ (Except ε α)) s = .ok (.error e) t := by
  unfold attempt
  rw [h]

theorem final_attempt (x : EStateM ε σ α) (s : σ) :
    final ((attempt x : EStateM ε' σ (Except ε α)) s) = final (x s) := by
  unfold attempt
  cases x s <;> rfl

theorem adaptExcept_congr (f : ε → ε') {x y : EStateM ε σ α} {s t : σ} (h : x s = y t) :
    EStateM.adaptExcept f x s = EStateM.adaptExcept f y t := by
  unfold EStateM.adaptExcept
  rw [h]

theorem adaptExcept_eq_ok {f : ε → ε'} {x : EStateM ε σ α} {s t : σ} {a : α}
    (h : EStateM.adaptExcept f x s = .ok a t) : x s = .ok a t := by
  unfold EStateM.adaptExcept at h
  cases hx : x s with
  | ok b u =>
    rw [hx] at h
    cases h
    rfl
  | error e u =>
    rw [hx] at h
    cases h

theorem final_adaptExcept (f : ε → ε') (x : EStateM ε σ α) (s : σ) :
    final (EStateM.adaptExcept f x s) = final (x s) := by
  unfold EStateM.adaptExcept
  cases x s <;> rfl

theorem traced_pure {log : σ → List ι} {s : σ} {a : α} {Q : α → List ι → σ → Prop}
    {E : ε → List ι → σ → Prop} (h : Q a [] s) :
    Traced log (pure a : EStateM ε σ α) s Q E :=
  ⟨[],by simp,h⟩

theorem traced_throw {log : σ → List ι} {s : σ} {e : ε} {Q : α → List ι → σ → Prop}
    {E : ε → List ι → σ → Prop} (h : E e [] s) :
    Traced log (throw e : EStateM ε σ α) s Q E :=
  ⟨[],by simp,h⟩

theorem traced_ofExcept {log : σ → List ι} {x : Except ε α} {s : σ}
    {Q : α → List ι → σ → Prop} {E : ε → List ι → σ → Prop} (hQ : ∀ a, x = .ok a → Q a [] s)
    (hE : ∀ e, x = .error e → E e [] s) : Traced log (ofExcept x : EStateM ε σ α) s Q E := by
  cases x with
  | ok a => exact traced_pure (hQ a rfl)
  | error e => exact traced_throw (hE e rfl)

theorem traced_ofExcept_bind {log : σ → List ι} {x : Except ε α} {f : α → EStateM ε σ β} {s : σ}
    {R : β → List ι → σ → Prop} {E : ε → List ι → σ → Prop}
    (hf : ∀ a, x = .ok a → Traced log (f a) s R E) (hE : ∀ e, x = .error e → E e [] s) :
    Traced log (ofExcept x >>= f) s R E := by
  cases x with
  | ok a => exact hf a rfl
  | error e => exact traced_throw (hE e rfl)

/-- An update that leaves the log alone. -/
theorem traced_modify {log : σ → List ι} {f : σ → σ} {s : σ} {Q : PUnit → List ι → σ → Prop}
    {E : ε → List ι → σ → Prop} (hlog : log (f s) = log s) (hQ : Q ⟨⟩ [] (f s)) :
    Traced log (modify f : EStateM ε σ PUnit) s Q E :=
  ⟨[],by simpa using hlog,hQ⟩

theorem eq_ok_of_toOption {x : Except ε α} {a : α} (h : x.toOption = some a) : x = .ok a := by
  cases x with
  | ok b =>
    cases Option.some.inj h
    rfl
  | error e => cases h

theorem exists_eq_ok_of_isSome {x : Except ε α} (h : x.toOption.isSome = true) :
    ∃ a, x = .ok a := by
  cases x with
  | ok a => exact ⟨a,rfl⟩
  | error e => cases h

theorem bind_eq_ok {x : Except ε α} {f : α → Except ε β} {b : β} (h : (x >>= f) = .ok b) :
    ∃ a, x = .ok a ∧ f a = .ok b := by
  cases x with
  | ok a => exact ⟨a,rfl,h⟩
  | error e => cases h

theorem bind_eq_error {x : Except ε α} {f : α → Except ε β} {e : ε} (h : (x >>= f) = .error e) :
    x = .error e ∨ ∃ a, x = .ok a ∧ f a = .error e := by
  cases x with
  | ok a => exact .inr ⟨a,rfl,h⟩
  | error e' => exact .inl (congrArg Except.error (Except.error.inj h))

/-- A failed traversal fails at the first element that does. -/
theorem mapM_eq_error_iff {f : α → Except ε β} {as : List α} {e : ε} :
    as.mapM f = .error e ↔ ∃ done a rest, as = done ++ a::rest ∧ (∀ x ∈ done, ∃ b, f x = .ok b) ∧
      f a = .error e := by
  induction as with
  | nil =>
    rw [List.mapM_nil]
    refine ⟨nofun,?_⟩
    intro h
    obtain ⟨done,a,rest,has,_⟩ := h
    simp at has
  | cons a as ih =>
    rw [List.mapM_cons]
    constructor
    · intro h
      rcases bind_eq_error h with ha | ⟨b,hb,h⟩
      · exact ⟨[],a,as,rfl,nofun,ha⟩
      · rcases bind_eq_error h with hrest | ⟨bs,_,h⟩
        · obtain ⟨done,x,rest,rfl,hdone,hx⟩ := ih.mp hrest
          exact ⟨a::done,x,rest,rfl,List.forall_mem_cons.mpr ⟨⟨b,hb⟩,hdone⟩,hx⟩
        · cases h
    · intro h
      obtain ⟨done,x,rest,has,hdone,hx⟩ := h
      cases done with
      | nil =>
        obtain ⟨rfl,rfl⟩ := List.cons_eq_cons.mp has
        rw [hx]
        rfl
      | cons y done =>
        obtain ⟨rfl,hrest⟩ := List.cons_eq_cons.mp has
        obtain ⟨⟨b,hb⟩,hdone⟩ := List.forall_mem_cons.mp hdone
        rw [hb,show as.mapM f = .error e from ih.mpr ⟨done,x,rest,hrest,hdone,hx⟩]
        rfl

theorem mapM_eq_error {f : α → Except ε β} {as : List α} {e : ε} (h : as.mapM f = .error e) :
    ∃ a ∈ as, f a = .error e := by
  obtain ⟨done,a,rest,rfl,_,ha⟩ := mapM_eq_error_iff.mp h
  exact ⟨a,by simp,ha⟩

theorem map_eq_ok {x : Except ε α} {f : α → β} {b : β} (h : x.map f = .ok b) :
    ∃ a, x = .ok a ∧ f a = b := by
  cases x with
  | ok a => exact ⟨a,rfl,Except.ok.inj h⟩
  | error e => cases h

/-- What a failed check would have stopped. -/
theorem check_eq_ok {c : Prop} [Decidable c] {e : ε} {x : Except ε α} {a : α}
    (h : (if c then .error e else x) = .ok a) : ¬c ∧ x = .ok a := by
  by_cases hc : c
  · rw [if_pos hc] at h
    cases h
  · rw [if_neg hc] at h
    exact ⟨hc,h⟩

/-- What the relation gives for each element on the right. -/
theorem forall₂_right {R : α → β → Prop} {P : β → Prop} {as : List α} {bs : List β}
    (h : List.Forall₂ R as bs) (hP : ∀ a ∈ as, ∀ b, R a b → P b) : ∀ b ∈ bs, P b := by
  induction h with
  | nil => simp
  | @cons a b as bs hab _ ih =>
    refine List.forall_mem_cons.mpr ⟨hP a List.mem_cons_self b hab,?_⟩
    exact ih fun x hx => hP x (List.mem_cons_of_mem a hx)

/-- And for each element on the left. -/
theorem forall₂_left {R : α → β → Prop} {P : α → Prop} {as : List α} {bs : List β}
    (h : List.Forall₂ R as bs) (hP : ∀ b ∈ bs, ∀ a, R a b → P a) : ∀ a ∈ as, P a :=
  forall₂_right (List.Forall₂.flip (R := flip R) h) hP

/-- Relations that agree on the elements of two lists relate the lists alike. -/
theorem forall₂_congr_mem {R S : α → β → Prop} {as : List α} {bs : List β}
    (h : ∀ a ∈ as, ∀ b ∈ bs, (R a b ↔ S a b)) : List.Forall₂ R as bs ↔ List.Forall₂ S as bs := by
  induction as generalizing bs with
  | nil => rw [List.forall₂_nil_left_iff,List.forall₂_nil_left_iff]
  | cons a as ih =>
    cases bs with
    | nil => rw [List.forall₂_nil_right_iff,List.forall₂_nil_right_iff]
    | cons b bs =>
      rw [List.forall₂_cons,List.forall₂_cons,h a List.mem_cons_self b List.mem_cons_self,ih]
      intro x hx y hy
      exact h x (List.mem_cons_of_mem a hx) y (List.mem_cons_of_mem b hy)

/-- Where each element on the left has one counterpart at most, those on the right repeat exactly
when two on the left share theirs. -/
theorem nodup_iff_of_forall₂ {R : α → β → Prop} (hR : Relator.RightUnique R) {as : List α}
    {bs : List β} (h : List.Forall₂ R as bs) :
    bs.Nodup ↔ as.Pairwise fun a a' => ¬∃ b, R a b ∧ R a' b := by
  induction h with
  | nil => simp
  | @cons a b as bs hab hrest ih =>
    rw [List.nodup_cons,List.pairwise_cons,ih]
    apply and_congr_left'
    constructor
    · intro hfresh
      refine forall₂_left hrest ?_
      intro b' hb' a' ha' hshared
      obtain ⟨c,hac,ha'c⟩ := hshared
      have hcb : c = b := hR hac hab
      have hcb' : c = b' := hR ha'c ha'
      exact hfresh (hcb ▸ hcb' ▸ hb')
    · intro hapart hmem
      have hother : ∀ b' ∈ bs, b' ≠ b := by
        refine forall₂_right hrest ?_
        intro a' ha' b' hb' heq
        exact hapart a' ha' ⟨b,hab,heq ▸ hb'⟩
      exact hother b hmem rfl

theorem mapM_eq_ok_iff {f : α → Except ε β} {as : List α} {bs : List β} :
    as.mapM f = .ok bs ↔ List.Forall₂ (fun a b => f a = .ok b) as bs := by
  induction as generalizing bs with
  | nil =>
    rw [List.mapM_nil,List.forall₂_nil_left_iff]
    exact ⟨fun h => (Except.ok.inj h).symm,fun h => congrArg Except.ok h.symm⟩
  | cons a as ih =>
    rw [List.mapM_cons]
    constructor
    · intro h
      obtain ⟨b,hb,h⟩ := bind_eq_ok h
      obtain ⟨bs',hbs,h⟩ := bind_eq_ok h
      cases Except.ok.inj h
      exact .cons hb (ih.mp hbs)
    · intro h
      cases h with
      | cons hb hbs =>
        rw [hb,show as.mapM f = .ok _ from ih.mpr hbs]
        rfl

theorem mapError_eq_ok {x : Except ε α} {g : ε → ε'} {a : α} (h : x.mapError g = .ok a) :
    x = .ok a := by
  cases x with
  | ok b => exact congrArg Except.ok (Except.ok.inj h)
  | error e => cases h

theorem mapError_eq_error {x : Except ε α} {g : ε → ε'} {e' : ε'} (h : x.mapError g = .error e') :
    ∃ e, x = .error e ∧ e' = g e := by
  cases x with
  | ok b => cases h
  | error e => exact ⟨e,rfl,(Except.error.inj h).symm⟩

/-- Sequencing concatenates what the two parts append. -/
theorem Traced.bind {log : σ → List ι} {x : EStateM ε σ α} {f : α → EStateM ε σ β} {s : σ}
    {Q : α → List ι → σ → Prop} {E E' : ε → List ι → σ → Prop} {R : β → List ι → σ → Prop}
    (hx : Traced log x s Q E)
    (hf : ∀ a d t, Q a d t →
      Traced log (f a) t (fun b d' u => R b (d ++ d') u) (fun e d' u => E' e (d ++ d') u))
    (hE : ∀ e d t, E e d t → E' e d t) : Traced log (x >>= f) s R E' := by
  unfold Traced
  rw [spec_bind]
  refine Spec.mono hx ?_ ?_
  · intro a t h
    obtain ⟨d,hd,hq⟩ := h
    refine Spec.mono (hf a d t hq) ?_ ?_
    · intro b u h
      obtain ⟨d',hd',hr⟩ := h
      exact ⟨d ++ d',by rw [hd',hd,List.append_assoc],hr⟩
    · intro e u h
      obtain ⟨d',hd',he⟩ := h
      exact ⟨d ++ d',by rw [hd',hd,List.append_assoc],he⟩
  · intro e t h
    obtain ⟨d,hd,he⟩ := h
    exact ⟨d,hd,hE e d t he⟩

theorem Traced.attempt {log : σ → List ι} {x : EStateM ε σ α} {s : σ}
    {Q : Except ε α → List ι → σ → Prop} {E : ε' → List ι → σ → Prop}
    (h : Traced log x s (fun a => Q (.ok a)) (fun e => Q (.error e))) :
    Traced log (Program.attempt x) s Q E := by
  unfold Traced
  rw [spec_attempt]
  exact h

theorem Traced.adaptExcept {log : σ → List ι} (f : ε → ε') {x : EStateM ε σ α} {s : σ}
    {Q : α → List ι → σ → Prop} {E : ε → List ι → σ → Prop} (h : Traced log x s Q E) :
    Traced log (EStateM.adaptExcept f x) s Q (fun e' d t => ∃ e, E e d t ∧ e' = f e) := by
  unfold Traced
  rw [spec_adaptExcept]
  apply Spec.mono h (fun _ _ hq => hq)
  intro e t he
  obtain ⟨d,hd,he⟩ := he
  exact ⟨d,hd,e,he,rfl⟩

/-- Loop rule. `I done b d t` holds after the elements `done`, with accumulator `b`, appended
log `d` and state `t`; a failing iteration owes `E` for everything appended so far. -/
theorem Traced.foldlM {log : σ → List ι} {f : β → α → EStateM ε σ β}
    {I : List α → β → List ι → σ → Prop} {E : ε → List ι → σ → Prop} (xs : List α) (b : β)
    (s : σ) (h0 : I [] b [] s)
    (hstep : ∀ done a rest c d t, xs = done ++ a :: rest → I done c d t →
      Traced log (f c a) t (fun c' d' u => I (done ++ [a]) c' (d ++ d') u)
        (fun e d' u => E e (d ++ d') u)) :
    Traced log (xs.foldlM f b) s (fun c d t => I xs c d t) E := by
  -- the induction is on what is left; `done` and the log so far are generalised
  have go : ∀ rest done c d t, xs = done ++ rest → I done c d t →
      Traced log (rest.foldlM f c) t (fun c' d' u => I xs c' (d ++ d') u)
        (fun e d' u => E e (d ++ d') u) := by
    intro rest
    induction rest with
    | nil =>
      intro done c d t hxs hI
      rw [List.append_nil] at hxs
      subst hxs
      exact traced_pure (by simpa using hI)
    | cons a rest ih =>
      intro done c d t hxs hI
      rw [List.foldlM_cons]
      refine Traced.bind (hstep done a rest c d t hxs hI) ?_ (fun _ _ _ h => h)
      intro c' d' u hI'
      refine Traced.mono (ih (done ++ [a]) c' (d ++ d') u (by simp [hxs]) hI') ?_ ?_
      · intro c'' d'' v h
        rwa [← List.append_assoc]
      · intro e d'' v h
        rwa [← List.append_assoc]
  exact Traced.mono (go xs [] b [] s rfl h0) (by simp) (by simp)

end Program
