import ObjectBoundary.State

/-!
# Running requests

What a request that is made of steps does, step by step. `Meets` says of a request, in a given
state, what holds when it succeeds and what holds when it fails.
-/

namespace ObjectBoundary

variable {α β : Type} {s : State}

namespace State

@[simp] theorem run_pure (s : State) (a : α) : s.run (pure a) = (.ok a, s) := rfl

theorem run_bind (s : State) (op : Op α) (next : α → Op β) :
    s.run (op >>= next) =
      match s.run op with
      | (.ok a, t) => t.run (next a)
      | (.error e, t) => (.error e, t) := by
  change (StateT.bind op.run (ExceptT.bindCont next)) s = _
  unfold State.run StateT.run
  simp only [StateT.bind, bind]
  cases op.run s with
  | mk result t => cases result <;> rfl

@[simp] theorem run_get (s : State) : s.run get = (.ok s, s) := rfl

@[simp] theorem run_set (s t : State) : s.run (set t) = (.ok (), t) := rfl

@[simp] theorem run_modify (s : State) (f : State → State) : s.run (modify f) = (.ok (), f s) := rfl

theorem run_tryCatch (s : State) (op : Op α) (handler : Failure → Op α) :
    s.run (tryCatch op handler) =
      match s.run op with
      | (.ok a, t) => (.ok a, t)
      | (.error e, t) => t.run (handler e) := by
  change (ExceptT.tryCatch op handler).run s = _
  unfold State.run StateT.run ExceptT.run ExceptT.tryCatch
  simp only [ExceptT.mk, StateT.bind, bind]
  cases op s with
  | mk result t => cases result <;> rfl

end State

namespace Op

/-- In a state, a request that succeeds ends with `ok`, and one that fails with `bad`. -/
def Meets (op : Op α) (s : State) (ok : α → State → Prop) (bad : Failure → State → Prop) : Prop :=
  match s.run op with
  | (.ok a, t) => ok a t
  | (.error e, t) => bad e t

variable {op : Op α} {ok : α → State → Prop} {bad : Failure → State → Prop}

theorem Meets.imp {ok' : α → State → Prop} {bad' : Failure → State → Prop}
    (h : op.Meets s ok bad) (hok : ∀ a t, ok a t → ok' a t) (hbad : ∀ e t, bad e t → bad' e t) :
    op.Meets s ok' bad' := by
  unfold Meets at *
  cases hr : s.run op with
  | mk result t =>
    rw [hr] at h
    cases result with
    | ok a => exact hok a t h
    | error e => exact hbad e t h

theorem Meets.ok_imp {ok' : α → State → Prop} (h : op.Meets s ok bad)
    (hok : ∀ a t, ok a t → ok' a t) : op.Meets s ok' bad := h.imp hok fun _ _ he => he

/-- Two things that are known of one request. -/
theorem Meets.and {ok' : α → State → Prop} {bad' : Failure → State → Prop}
    (first : op.Meets s ok bad) (second : op.Meets s ok' bad') :
    op.Meets s (fun a t => ok a t ∧ ok' a t) fun e t => bad e t ∧ bad' e t := by
  unfold Meets at *
  cases hr : s.run op with
  | mk result t =>
    rw [hr] at first second
    cases result with
    | ok a => exact ⟨first, second⟩
    | error e => exact ⟨first, second⟩

theorem Meets.bind {next : α → Op β} {ok' : β → State → Prop} (h : op.Meets s ok bad)
    (hnext : ∀ a t, ok a t → (next a).Meets t ok' bad) : (op >>= next).Meets s ok' bad := by
  unfold Meets at h
  unfold Meets
  rw [State.run_bind]
  cases hr : s.run op with
  | mk result t =>
    rw [hr] at h
    cases result with
    | ok a => exact hnext a t h
    | error e => exact h

theorem Meets.tryCatch {handler : Failure → Op α} {bad' : Failure → State → Prop}
    (h : op.Meets s ok bad') (hnext : ∀ e t, bad' e t → (handler e).Meets t ok bad) :
    (tryCatch op handler).Meets s ok bad := by
  unfold Meets at h
  unfold Meets
  rw [State.run_tryCatch]
  cases hr : s.run op with
  | mk result t =>
    rw [hr] at h
    cases result with
    | ok a => exact h
    | error e => exact hnext e t h

theorem meets_pure {a : α} (h : ok a s) : (pure a : Op α).Meets s ok bad := h

theorem meets_throw {e : Failure} (h : bad e s) : (throw e : Op α).Meets s ok bad := h

theorem meets_fail {fault : Fault} (h : bad (.fault fault) s) :
    (fail fault : Op α).Meets s ok bad := h

theorem meets_invalid {cause : BadArgument} (h : bad (.fault (.invalidArgument cause)) s) :
    (invalid cause : Op α).Meets s ok bad := h

/-- Nothing comes after a failure. -/
theorem meets_fail_bind {fault : Fault} {next : α → Op β} {ok' : β → State → Prop}
    (h : bad (.fault fault) s) : ((fail fault : Op α) >>= next).Meets s ok' bad := h

/-- Reading the state is no step of its own. -/
theorem meets_get {next : State → Op β} {ok' : β → State → Prop}
    (h : (next s).Meets s ok' bad) : (get >>= next).Meets s ok' bad := h

theorem meets_modify {change : State → State} {next : PUnit → Op β} {ok' : β → State → Prop}
    (h : (next ⟨⟩).Meets (change s) ok' bad) : (modify change >>= next).Meets s ok' bad := h

theorem meets_of_run {a : α} {t : State} (hr : s.run op = (.ok a, t)) (h : ok a t) :
    op.Meets s ok bad := by
  unfold Meets
  rw [hr]
  exact h

/-- A step of which the outcome is known. -/
theorem meets_run {a : α} {t : State} {next : α → Op β} {ok' : β → State → Prop}
    (hr : s.run op = (.ok a, t)) (h : (next a).Meets t ok' bad) :
    (op >>= next).Meets s ok' bad := by
  unfold Meets
  rw [State.run_bind, hr]
  exact h

theorem Meets.ok_of_run {a : α} {t : State} (h : op.Meets s ok bad)
    (hr : s.run op = (.ok a, t)) : ok a t := by
  unfold Meets at h
  rwa [hr] at h

theorem Meets.bad_of_run {e : Failure} {t : State} (h : op.Meets s ok bad)
    (hr : s.run op = (.error e, t)) : bad e t := by
  unfold Meets at h
  rwa [hr] at h

-- A request is followed by these rules from here on, never by running it.
attribute [irreducible] Meets

end Op

end ObjectBoundary
