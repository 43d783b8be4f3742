import TwoBus.Activity

/-!
# Laws of activities

A law relates a state, what is recorded, and the state that is left behind. It must hold where
nothing happens, and it must compose; then an activity obeys it if its parts do, whether it ends in
a fault or not. Frames and invariants are laws, and so is what a trace tells about a state.

* `Law.obeyed_bind`, `Law.obeyed_forM`, `Law.obeyed_focus`, …: one lemma for each way in which
  activities are put together.
-/

namespace TwoBus

/-- What is claimed about every activity on a state, or about every one of some kind. -/
structure Law (σ : Type) where
  /-- The state before, what is recorded, and the state after. -/
  Holds : σ → Trace → σ → Prop
  refl : ∀ s, Holds s [] s
  trans : ∀ {s s' s'' t t'}, Holds s t s' → Holds s' t' s'' → Holds s (t ++ t') s''

namespace Law

variable {σ τ α β : Type} {law : Law σ}

/-- The law that asks for nothing. -/
def free : Law σ where
  Holds _ _ _ := True
  refl _ := trivial
  trans _ _ := trivial

/-- A law of something that can be seen of a state, as a law of the state. -/
def via (see : σ → τ) (inner : Law τ) : Law σ where
  Holds s t s' := inner.Holds (see s) t (see s')
  refl s := inner.refl (see s)
  trans h h' := inner.trans h h'

/-- An activity obeys a law wherever it is started. -/
def Obeyed [Logger] (law : Law σ) (x : Activity σ α) : Prop :=
  ∀ s, law.Holds s (x.run s).trace (x.run s).state

theorem obeyed_free [Logger] (x : Activity σ α) : free.Obeyed x := fun _ => trivial

theorem obeyed_pure [Logger] (a : α) : law.Obeyed (pure a : Activity σ α) := law.refl

theorem obeyed_get [Logger] : law.Obeyed (get : Activity σ σ) := law.refl

theorem obeyed_fail [Logger] (fault : Fault) : law.Obeyed
    (Activity.fail fault : Activity σ α) := law.refl

/-- A check changes nothing. -/
theorem obeyed_lift [Logger] (x : Except Fault α) : law.Obeyed (liftM x : Activity σ α) := law.refl

theorem obeyed_modify [Logger] {f : σ → σ} (h : ∀ s, law.Holds s [] (f s)) :
    law.Obeyed (modify f : Activity σ PUnit) := h

theorem obeyed_bind [Logger] {x : Activity σ α} {next : α → Activity σ β} (hx : law.Obeyed x)
    (hnext : ∀ a, law.Obeyed (next a)) : law.Obeyed (x >>= next) := by
  intro s
  have hfirst := hx s
  rw [Activity.run_bind]
  cases hrun : x.run s with
  | mk outcome s' t =>
    rw [hrun] at hfirst
    cases outcome with
    | error fault => exact hfirst
    | ok a => exact law.trans hfirst (hnext a s')

/-- What follows obeys a law from where the first part ended, also if it never got there. -/
theorem holds_bind [Logger] {x : Activity σ α} {next : α → Activity σ β}
    (hnext : ∀ a, law.Obeyed (next a)) (s : σ) :
    ∃ t, law.Holds (x.run s).state t ((x >>= next).run s).state := by
  rw [Activity.run_bind]
  cases hrun : x.run s with
  | mk outcome s' t =>
    cases outcome with
    | error fault =>
      -- after a fault nothing follows
      exact ⟨[], law.refl s'⟩
    | ok a => exact ⟨_, hnext a s'⟩

theorem obeyed_ite [Logger] {c : Prop} [Decidable c] {x y : Activity σ α} (hx : law.Obeyed x)
    (hy : law.Obeyed y) : law.Obeyed (if c then x else y) := by
  split
  · exact hx
  · exact hy

theorem obeyed_forM [Logger] {f : α → Activity σ PUnit} {as : List α}
    (h : ∀ a ∈ as, law.Obeyed (f a)) :
    law.Obeyed (as.forM f) := by
  induction as with
  | nil => exact law.refl
  | cons a as ih =>
    have ha := h a List.mem_cons_self
    have has := ih fun a' ha' => h a' (List.mem_cons_of_mem a ha')
    exact obeyed_bind ha fun _ => has

/-- A repair after a fault is one more thing to obey. -/
theorem obeyed_onFault [Logger] {x : Activity σ α} {repair : σ → σ} (hx : law.Obeyed x)
    (hrepair : ∀ s, law.Holds s [] (repair s)) : law.Obeyed (Activity.onFault repair x) := by
  intro s
  have hrun := hx s
  cases houtcome : (x.run s).outcome with
  | ok a =>
    rw [Activity.run_onFault_of_ok repair houtcome]
    exact hrun
  | error fault =>
    have hboth := law.trans hrun (hrepair (x.run s).state)
    rw [List.append_nil] at hboth
    rw [Activity.run_onFault_of_error repair houtcome]
    exact hboth

/-- An activity on a part obeys a law of the whole if it obeys one of the part that implies it. -/
theorem obeyed_focus [Logger] {part : Part σ τ} {inner : Law τ} {x : Activity τ α}
    (hx : inner.Obeyed x)
    (h : ∀ s t v, inner.Holds (part.get s) t v → law.Holds s t (part.set s v)) :
    law.Obeyed (Activity.focus part x) :=
  fun s => h s _ _ (hx (part.get s))

end Law

end TwoBus
