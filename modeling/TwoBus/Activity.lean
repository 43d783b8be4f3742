import TwoBus.Trace

/-!
# Activities

An activity works on a state, records events, and ends with an answer or a fault. A fault keeps the
state and the trace reached so far: what was done before it stays done.

An activity can ask how the switches of the log stand, and do one thing or another for it: `emit`
prints an event only if its channel is on, `whenOn` does something only then. `run` carries an
activity out under a logger.

A part of the machine is worked on by an activity of its own state, which `focus` carries over to
the whole. `bracket` sets something up and takes it down again whatever the outcome, `isolate` works
on a state of its own that is discarded afterwards, and `onFault` repairs the state after a fault.
Activities form a lawful monad, and `run_bind` and the other `run` equations below compute them.
-/

namespace TwoBus

/-- How an activity ended: its answer or its fault, the state it left, and what it recorded. -/
structure Reaction (σ α : Type) where
  /-- The answer, or the fault that ended the activity early. -/
  outcome : Except Fault α
  /-- The state left behind, after a fault too. -/
  state : σ
  /-- What was recorded, up to a fault if there was one. -/
  trace : Trace

/-- A computation on a state `σ` that may fault, may look at the switches of the log, and records
what it does. -/
structure Activity (σ α : Type) where
  react : Switches → σ → Reaction σ α

/-- Carry out an activity under a logger. -/
def Activity.run [Logger] {σ α : Type} (x : Activity σ α) (s : σ) : Reaction σ α :=
  x.react Logger.switches s

/-- A part of a larger state: how to look at it and how to put it back. -/
structure Part (σ τ : Type) where
  get : σ → τ
  set : σ → τ → σ

namespace Reaction

variable {σ τ α β : Type} {logger : Logger}

/-- Put a trace in front of a reaction. -/
def after (trace : Trace) (r : Reaction σ α) : Reaction σ α :=
  { r with trace := trace ++ r.trace }

/-- Go on with the answer, unless there was a fault. -/
def andThen [Logger] (r : Reaction σ α) (next : α → Activity σ β) : Reaction σ β :=
  match r.outcome with
  | .ok a => ((next a).run r.state).after r.trace
  | .error fault => ⟨.error fault, r.state, r.trace⟩

/-- Change the state that is left behind. -/
def mapState (f : σ → τ) (r : Reaction σ α) : Reaction τ α :=
  ⟨r.outcome, f r.state, r.trace⟩

@[simp] theorem outcome_after (t : Trace) (r : Reaction σ α) :
    (r.after t).outcome = r.outcome := rfl

@[simp] theorem state_after (t : Trace) (r : Reaction σ α) : (r.after t).state = r.state := rfl

@[simp] theorem trace_after (t : Trace) (r : Reaction σ α) :
    (r.after t).trace = t ++ r.trace := rfl

@[simp] theorem after_nil (r : Reaction σ α) : r.after [] = r := rfl

@[simp] theorem after_mk (t u : Trace) (x : Except Fault α) (s : σ) :
    (Reaction.mk x s u).after t = ⟨x, s, t ++ u⟩ := rfl

theorem after_after (t u : Trace) (r : Reaction σ α) : (r.after u).after t = r.after (t ++ u) := by
  simp [after]

@[simp] theorem andThen_ok (a : α) (s : σ) (t : Trace) (next : α → Activity σ β) :
    (Reaction.mk (.ok a) s t).andThen next = ((next a).run s).after t := rfl

@[simp] theorem andThen_error (fault : Fault) (s : σ) (t : Trace) (next : α → Activity σ β) :
    (Reaction.mk (.error fault) s t).andThen next = ⟨.error fault, s, t⟩ := rfl

/-- What is recorded first stays recorded. -/
theorem trace_prefix_andThen (r : Reaction σ α) (next : α → Activity σ β) :
    r.trace <+: (r.andThen next).trace := by
  obtain ⟨outcome, state, trace⟩ := r
  cases outcome with
  | error fault => exact List.prefix_rfl
  | ok a => exact List.prefix_append _ _

@[simp] theorem outcome_mapState (f : σ → τ) (r : Reaction σ α) :
    (r.mapState f).outcome = r.outcome := rfl

@[simp] theorem state_mapState (f : σ → τ) (r : Reaction σ α) :
    (r.mapState f).state = f r.state := rfl

@[simp] theorem trace_mapState (f : σ → τ) (r : Reaction σ α) :
    (r.mapState f).trace = r.trace := rfl

@[simp] theorem mapState_mk (f : σ → τ) (x : Except Fault α) (s : σ) (t : Trace) :
    (Reaction.mk x s t).mapState f = ⟨x, f s, t⟩ := rfl

end Reaction

namespace Activity

variable {σ τ α β : Type} {logger : Logger}

/-- Activities are the same that do the same under every logger. -/
@[ext] theorem ext {x y : Activity σ α} (h : ∀ (_ : Logger) (s : σ), x.run s = y.run s) :
    x = y := by
  cases x
  cases y
  exact congrArg Activity.mk (funext fun switches => funext (h ⟨switches⟩))

instance : Monad (Activity σ) where
  pure a := ⟨fun _ s => ⟨.ok a, s, []⟩⟩
  bind x f := ⟨fun switches s =>
    letI : Logger := ⟨switches⟩
    (x.run s).andThen f⟩

instance : MonadStateOf σ (Activity σ) where
  get := ⟨fun _ s => ⟨.ok s, s, []⟩⟩
  set s := ⟨fun _ _ => ⟨.ok ⟨⟩, s, []⟩⟩
  modifyGet f := ⟨fun _ s => ⟨.ok (f s).1, (f s).2, []⟩⟩

/-- A check without effects is an activity that changes nothing. -/
instance : MonadLift (Except Fault) (Activity σ) where
  monadLift x := ⟨fun _ s => ⟨x, s, []⟩⟩

def fail (fault : Fault) : Activity σ α := ⟨fun _ s => ⟨.error fault, s, []⟩⟩

/-- How the switches of the log stand. -/
def switches : Activity σ Switches := ⟨fun switches s => ⟨.ok switches, s, []⟩⟩

/-- Print an event. -/
def announce (event : Event) : Activity σ Unit := ⟨fun _ s => ⟨.ok (), s, [⟨event, true⟩]⟩⟩

/-- Take note of an event that is not printed. -/
def note (event : Event) : Activity σ Unit := ⟨fun _ s => ⟨.ok (), s, [⟨event, false⟩]⟩⟩

/-- Print an event if its channel is on. -/
def emit (channel : Channel) (event : Event) : Activity σ Unit := do
  if (← switches).isOn channel then announce event else note event

/-- Do something only if a channel is on. -/
def whenOn (channel : Channel) (x : Activity σ Unit) : Activity σ Unit := do
  if (← switches).isOn channel then x else pure ()

/-- Print a report. -/
def report (events : List Event) : Activity σ Unit := events.forM announce

/-- Work on a part of the state. -/
def focus (part : Part σ τ) (x : Activity τ α) : Activity σ α :=
  ⟨fun switches s => (x.react switches (part.get s)).mapState (part.set s)⟩

/-- Work on a state of one's own and leave everything else as it is. -/
def isolate (start : τ) (x : Activity τ α) : Activity σ α :=
  ⟨fun switches s => (x.react switches start).mapState (fun _ => s)⟩

/-- Change the state before the activity and again after it, also after a fault. -/
def bracket (before after : σ → σ) (x : Activity σ α) : Activity σ α :=
  ⟨fun switches s => (x.react switches (before s)).mapState after⟩

/-- Change the state after a fault, and only then. -/
def onFault (repair : σ → σ) (x : Activity σ α) : Activity σ α :=
  ⟨fun switches s =>
    let r := x.react switches s
    match r.outcome with
    | .ok _ => r
    | .error _ => r.mapState repair⟩

@[simp] theorem run_pure (a : α) (s : σ) : (pure a : Activity σ α).run s = ⟨.ok a, s, []⟩ := rfl

@[simp] theorem run_bind (x : Activity σ α) (f : α → Activity σ β) (s : σ) :
    (x >>= f).run s = (x.run s).andThen f := rfl

@[simp] theorem run_map (f : α → β) (x : Activity σ α) (s : σ) :
    (f <$> x).run s = (x.run s).andThen fun a => pure (f a) := rfl

/-- What is made of an answer changes nothing else. -/
theorem run_bind_pure [Logger] (x : Activity σ α) (f : α → β) (s : σ) :
    (x >>= fun a => pure (f a)).run s
      = ⟨(x.run s).outcome.map f, (x.run s).state, (x.run s).trace⟩ := by
  rw [run_bind]
  obtain ⟨outcome, state, trace⟩ := x.run s
  cases outcome with
  | error fault => rfl
  | ok a => rw [Reaction.andThen_ok, run_pure, Reaction.after_mk, List.append_nil]; rfl

@[simp] theorem run_forM_nil (f : α → Activity σ PUnit) (s : σ) :
    (([] : List α).forM f).run s = ⟨.ok ⟨⟩, s, []⟩ := rfl

@[simp] theorem run_forM_cons (f : α → Activity σ PUnit) (a : α) (as : List α) (s : σ) :
    ((a :: as).forM f).run s = ((f a).run s).andThen fun _ => as.forM f := rfl

/-- A fault arises at the head of a list, or after the head has been carried out. -/
theorem run_forM_cons_eq_error {f : α → Activity σ PUnit} {a : α} {as : List α} {s s' : σ}
    {fault : Fault} {t : Trace} (h : ((a :: as).forM f).run s = ⟨.error fault, s', t⟩) :
    (f a).run s = ⟨.error fault, s', t⟩
      ∨ ∃ s₁ t₁ t₂, (f a).run s = ⟨.ok ⟨⟩, s₁, t₁⟩
          ∧ (as.forM f).run s₁ = ⟨.error fault, s', t₂⟩ ∧ t = t₁ ++ t₂ := by
  rw [run_forM_cons] at h
  cases hhead : (f a).run s with
  | mk outcome s₁ t₁ =>
    rw [hhead] at h
    cases outcome with
    | error cause => exact Or.inl h
    | ok _ =>
      cases hrest : (as.forM f).run s₁ with
      | mk outcome₂ s₂ t₂ =>
        rw [Reaction.andThen_ok, hrest, Reaction.after_mk] at h
        cases h
        exact Or.inr ⟨s₁, t₁, t₂, rfl, hrest, rfl⟩

theorem run_forM_append [Logger] (f : α → Activity σ PUnit) (as bs : List α) (s : σ) :
    ((as ++ bs).forM f).run s = ((as.forM f).run s).andThen fun _ => bs.forM f := by
  induction as generalizing s with
  | nil => rfl
  | cons a as ih =>
    rw [List.cons_append, run_forM_cons, run_forM_cons]
    obtain ⟨outcome, state, trace⟩ := (f a).run s
    cases outcome with
    | error fault => rfl
    | ok _ =>
      simp only [Reaction.andThen_ok, ih]
      obtain ⟨outcome', state', trace'⟩ := (as.forM f).run state
      cases outcome' with
      | error fault => rfl
      | ok _ => simp [Reaction.after_after]

theorem run_ite (c : Prop) [Decidable c] (x y : Activity σ α) (s : σ) :
    (if c then x else y).run s = if c then x.run s else y.run s := by
  split <;> rfl

@[simp] theorem run_get (s : σ) : (get : Activity σ σ).run s = ⟨.ok s, s, []⟩ := rfl

@[simp] theorem run_set (s s' : σ) : (set s' : Activity σ PUnit).run s = ⟨.ok ⟨⟩, s', []⟩ := rfl

@[simp] theorem run_modify (f : σ → σ) (s : σ) :
    (modify f : Activity σ PUnit).run s = ⟨.ok ⟨⟩, f s, []⟩ := rfl

@[simp] theorem run_lift (x : Except Fault α) (s : σ) :
    (liftM x : Activity σ α).run s = ⟨x, s, []⟩ := rfl

@[simp] theorem run_monadLift (x : Except Fault α) (s : σ) :
    (MonadLift.monadLift x : Activity σ α).run s = ⟨x, s, []⟩ := rfl

@[simp] theorem run_fail (fault : Fault) (s : σ) :
    (fail fault : Activity σ α).run s = ⟨.error fault, s, []⟩ := rfl

@[simp] theorem run_switches (s : σ) :
    (switches : Activity σ Switches).run s = ⟨.ok Logger.switches, s, []⟩ := rfl

@[simp] theorem run_announce (event : Event) (s : σ) :
    (announce event).run s = ⟨.ok (), s, [.of none event]⟩ := rfl

@[simp] theorem run_note (event : Event) (s : σ) :
    (note event).run s = ⟨.ok (), s, [⟨event, false⟩]⟩ := rfl

/-- An event is recorded on its channel, printed or not. -/
@[simp] theorem run_emit (channel : Channel) (event : Event) (s : σ) :
    (emit channel event).run s = ⟨.ok (), s, [.of (some channel) event]⟩ := by
  unfold emit
  rw [run_bind, run_switches, Reaction.andThen_ok, Reaction.after_nil, run_ite]
  cases hon : Logger.switches.isOn channel <;> simp [Entry.of, hon]

@[simp] theorem run_whenOn (channel : Channel) (x : Activity σ Unit) (s : σ) :
    (whenOn channel x).run s
      = if Logger.switches.isOn channel then x.run s else ⟨.ok (), s, []⟩ := by
  unfold whenOn
  rw [run_bind, run_switches, Reaction.andThen_ok, Reaction.after_nil, run_ite, run_pure]

/-- Activities that record one event each, one after the other. -/
theorem run_forM_record {f : α → Activity σ PUnit} {entry : α → Entry}
    (h : ∀ a s, (f a).run s = ⟨.ok ⟨⟩, s, [entry a]⟩) (as : List α) (s : σ) :
    (as.forM f).run s = ⟨.ok ⟨⟩, s, as.map entry⟩ := by
  induction as with
  | nil => rfl
  | cons a as ih =>
    rw [run_forM_cons, h, Reaction.andThen_ok, ih, Reaction.after_mk]
    rfl

theorem run_forM_emit (channel : Channel) (events : List Event) (s : σ) :
    (events.forM (emit channel)).run s = ⟨.ok (), s, events.map (.of (some channel))⟩ :=
  run_forM_record (run_emit channel) events s

@[simp] theorem run_report (events : List Event) (s : σ) :
    (report events).run s = ⟨.ok (), s, events.map (.of none)⟩ :=
  run_forM_record run_announce events s

@[simp] theorem run_focus (part : Part σ τ) (x : Activity τ α) (s : σ) :
    (focus part x).run s = (x.run (part.get s)).mapState (part.set s) := rfl

@[simp] theorem run_isolate (start : τ) (x : Activity τ α) (s : σ) :
    (isolate start x).run s = (x.run start).mapState (fun _ => s) := rfl

@[simp] theorem run_bracket (before after : σ → σ) (x : Activity σ α) (s : σ) :
    (bracket before after x).run s = (x.run (before s)).mapState after := rfl

theorem run_onFault_of_ok (repair : σ → σ) {x : Activity σ α} {s : σ} {a : α}
    (h : (x.run s).outcome = .ok a) : (onFault repair x).run s = x.run s := by
  unfold run at h ⊢
  simp [onFault, h]

theorem run_onFault_of_error (repair : σ → σ) {x : Activity σ α} {s : σ} {fault : Fault}
    (h : (x.run s).outcome = .error fault) :
    (onFault repair x).run s = (x.run s).mapState repair := by
  unfold run at h ⊢
  simp [onFault, h]

theorem trace_onFault (repair : σ → σ) (x : Activity σ α) (s : σ) :
    ((onFault repair x).run s).trace = (x.run s).trace := by
  cases h : (x.run s).outcome with
  | ok a => rw [run_onFault_of_ok repair h]
  | error fault => rw [run_onFault_of_error repair h, Reaction.trace_mapState]

/-- A fault or an answer, and then what follows: associativity holds with the traces, since
appending them is associative. -/
instance : LawfulMonad (Activity σ) := LawfulMonad.mk' (Activity σ)
  (by
    intro α x
    ext logger s
    show (x.run s).andThen (fun a => pure (id a)) = x.run s
    obtain ⟨outcome, state, trace⟩ := x.run s
    cases outcome <;> simp)
  (by
    intro α β a f
    rfl)
  (by
    intro α β γ x f g
    ext logger s
    simp only [run_bind]
    obtain ⟨outcome, state, trace⟩ := x.run s
    cases outcome with
    | error fault => rfl
    | ok a =>
      simp only [Reaction.andThen_ok, run_bind]
      obtain ⟨outcome', state', trace'⟩ := (f a).run state
      cases outcome' with
      | error fault => rfl
      | ok b => simp [Reaction.after_after])

end Activity

end TwoBus
