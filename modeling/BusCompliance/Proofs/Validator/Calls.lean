import BusCompliance.Factory

/-!
# Which checks a chain calls

The checks of a tree of chains are called from left to right, each on the state that the one before
left, and none behind the first error. How they are nested shows in the reports of the chains only.
A factory goes on with the checks of the narrower scope, and with its own last check.
-/

namespace BusCompliance.Validator

abbrev Check (σ : Type) : Type := Message → Stateful σ Status

variable {ρ σ τ : Type}

/-! ## The checks of a tree -/

mutual

def checks : Validator σ → List (Check σ)
  | .single check => [check]
  | .chain validators => checksOf validators

def checksOf : List (Validator σ) → List (Check σ)
  | [] => []
  | v :: vs => checks v ++ checksOf vs

end

/-! ## Runs -/

/-- A check that is called, and the state that it is called on. -/
structure Call (σ : Type) where
  check : Check σ
  state : σ

/-- What calls of checks come to. -/
structure Run (σ : Type) where
  calls : List (Call σ)
  /-- What the checks report. -/
  events : List Event
  status : Status
  state : σ

namespace Run

/-- The run without a call. -/
def stay (s : σ) : Run σ := ⟨[], [], .ok, s⟩

def call (m : Message) (c : Check σ) (s : σ) : Run σ :=
  let done := (c m).run s
  ⟨[⟨c, s⟩], done.events, done.value.1, done.value.2⟩

/-- Go on from the state of a run, unless it ends in an error. -/
def andThen (run : Run σ) (next : σ → Run σ) : Run σ :=
  if run.status.hasError then run
  else
    let rest := next run.state
    ⟨run.calls ++ rest.calls, run.events ++ rest.events, rest.status, rest.state⟩

/-- Call checks from left to right up to the first error. -/
def all (m : Message) : List (Check σ) → σ → Run σ
  | [], s => stay s
  | c :: cs, s => (call m c s).andThen (all m cs)

variable {m : Message} {run : Run σ} {next : σ → Run σ}

theorem andThen_error (h : run.status.hasError = true) : run.andThen next = run := by
  unfold andThen
  rw [if_pos h]

theorem andThen_passed (h : run.status.hasError = false) : run.andThen next =
    ⟨run.calls ++ (next run.state).calls, run.events ++ (next run.state).events,
      (next run.state).status, (next run.state).state⟩ := by
  unfold andThen
  rw [if_neg (by simp [h])]

theorem stay_andThen (s : σ) (next : σ → Run σ) : (stay s).andThen next = next s :=
  andThen_passed rfl

theorem andThen_assoc (run : Run σ) (next last : σ → Run σ) :
    (run.andThen next).andThen last = run.andThen fun s => (next s).andThen last := by
  unfold andThen
  cases h : run.status.hasError with
  | true => simp [h]
  | false => cases hnext : (next run.state).status.hasError <;> simp [hnext]

theorem all_append (cs ds : List (Check σ)) (s : σ) :
    all m (cs ++ ds) s = (all m cs s).andThen (all m ds) := by
  induction cs generalizing s with
  | nil => exact (stay_andThen s (all m ds)).symm
  | cons c cs ih =>
    rw [List.cons_append, all, all, andThen_assoc]
    exact congrArg (andThen (call m c s)) (funext ih)

end Run

/-! ## What a tree does -/

variable {m : Message} {run : Run σ} {x : Logged (Status × σ)}

/-- The computation ends as the run does. Behind the events of the checks stand the reports of the
chains around a check that failed: the place in the chain, from the innermost one outwards. -/
structure Follows (x : Logged (Status × σ)) (run : Run σ) : Prop where
  value : x.value = (run.status, run.state)
  events : ∃ path : List Nat, (run.status.hasError = false → path = []) ∧
    x.events = run.events ++ path.map fun i => .validatorRejected i run.status.reason

theorem Follows.events_passed (h : Follows x run) (hpassed : run.status.hasError = false) :
    x.events = run.events := by
  obtain ⟨path, hpath, hevents⟩ := h.events
  rw [hevents, hpath hpassed, List.map_nil, List.append_nil]

theorem follows_call (m : Message) (c : Check σ) (s : σ) :
    Follows ((c m).run s) (.call m c s) := by
  refine ⟨rfl, [], fun _ => rfl, ?_⟩
  rw [List.map_nil, List.append_nil]
  rfl

/-- The rest of a computation runs if its first part passes, and only then. -/
theorem Follows.bind {next : σ → Run σ} {f : Status × σ → Logged (Status × σ)}
    (h : Follows x run) (herror : run.status.hasError = true → ∃ path : List Nat,
      (f (run.status, run.state)).value = (run.status, run.state) ∧
      (f (run.status, run.state)).events =
        path.map fun i => .validatorRejected i run.status.reason)
    (hpassed : run.status.hasError = false → Follows (f (run.status, run.state)) (next run.state)) :
    Follows (x >>= f) (run.andThen next) := by
  cases hstatus : run.status.hasError with
  | true =>
    obtain ⟨path, -, hevents⟩ := h.events
    obtain ⟨path', hvalue', hevents'⟩ := herror hstatus
    rw [Run.andThen_error hstatus]
    refine ⟨?_, path ++ path', fun hpassed => absurd hstatus (by simp [hpassed]), ?_⟩
    · rw [Logged.value_bind, h.value, hvalue']
    · rw [Logged.events_bind, h.value, hevents, hevents', List.map_append, List.append_assoc]
  | false =>
    obtain ⟨path, hpath, hevents⟩ := (hpassed hstatus).events
    rw [Run.andThen_passed hstatus]
    refine ⟨?_, path, hpath, ?_⟩
    · rw [Logged.value_bind, h.value, (hpassed hstatus).value]
    · rw [Logged.events_bind, h.value, h.events_passed hstatus, hevents, List.append_assoc]

/-- A chain goes on with the rest of it behind a validator that passes. -/
theorem run_validateAll_cons (m : Message) (index : Nat) (v : Validator σ)
    (vs : List (Validator σ)) (s : σ) : (validateAll m index (v :: vs)).run s =
      (validate m v).run s >>= fun (status, s) =>
        if status.hasError then do
          Logged.log (.validatorRejected index status.reason)
          return (status, s)
        else (validateAll m (index + 1) vs).run s := by
  rw [validateAll, StateT.run_bind]
  refine congrArg (((validate m v).run s) >>= ·) (funext fun (status, s) => ?_)
  simp only
  split
  · rfl
  · rfl

mutual

/-- A check that passes may do so with any status, and a chain that passes has the nominal one; what
comes behind them does not see the difference. -/
theorem follows_validate (m : Message) (v : Validator σ) (s : σ) :
    ∃ run, Follows ((validate m v).run s) run ∧
      ∀ next, run.andThen next = (Run.all m (checks v) s).andThen next := by
  cases v with
  | single c =>
    refine ⟨.call m c s, follows_call m c s, ?_⟩
    intro next
    rw [checks, Run.all, Run.andThen_assoc]
    exact congrArg (Run.andThen (.call m c s)) (funext fun s => (Run.stay_andThen s next).symm)
  | chain vs => exact ⟨_, follows_validateAll m 0 vs s, fun _ => rfl⟩

theorem follows_validateAll (m : Message) (index : Nat) (vs : List (Validator σ)) (s : σ) :
    Follows ((validateAll m index vs).run s) (Run.all m (checksOf vs) s) := by
  cases vs with
  | nil => exact ⟨rfl, [], fun _ => rfl, rfl⟩
  | cons v vs =>
    obtain ⟨run, hfirst, hrun⟩ := follows_validate m v s
    rw [checksOf, Run.all_append, ← hrun, run_validateAll_cons]
    refine hfirst.bind ?_ ?_
    · intro herror
      simp only [herror, if_true]
      exact ⟨[index], rfl, rfl⟩
    · intro hpassed
      simp only [hpassed]
      exact follows_validateAll m (index + 1) vs run.state

end

/-- What stands behind a chain goes on from the run of its checks. -/
theorem follows_validateWith {last : Check σ} {next : σ → Run σ}
    (hlast : ∀ s, Follows ((last m).run s) (next s)) (vs : List (Validator σ)) (s : σ) :
    Follows ((validateWith m vs last).run s) ((Run.all m (checksOf vs) s).andThen next) := by
  have hrun : (validateWith m vs last).run s =
      (validateAll m 0 vs).run s >>= fun (status, s) =>
        if status.hasError then return (status, s) else (last m).run s := by
    rw [validateWith, StateT.run_bind]
    refine congrArg (((validateAll m 0 vs).run s) >>= ·) (funext fun (status, s) => ?_)
    simp only
    split
    · rfl
    · rfl
  rw [hrun]
  refine (follows_validateAll m 0 vs s).bind ?_ ?_
  · intro herror
    simp only [herror, if_true]
    exact ⟨[], rfl, rfl⟩
  · intro hpassed
    simp only [hpassed]
    exact hlast _

theorem follows_isCompliantWith (f : Factory σ) (inner : List (Validator (Registry × σ)))
    (m : Message) (s : Registry × σ) : Follows ((f.isCompliantWith m inner).run s)
      ((Run.all m (checksOf f.validators ++ checksOf inner) s).andThen (.call m f.compliance)) := by
  rw [Run.all_append, Run.andThen_assoc]
  refine follows_validateWith ?_ f.validators s
  exact follows_validateWith (follows_call m f.compliance) inner

/-! ## Calls written down -/

mutual

/-- The tree with every check replaced. -/
def map (g : Check σ → Check τ) : Validator σ → Validator τ
  | .single check => .single (g check)
  | .chain validators => .chain (mapAll g validators)

def mapAll (g : Check σ → Check τ) : List (Validator σ) → List (Validator τ)
  | [] => []
  | v :: vs => map g v :: mapAll g vs

end

mutual

theorem checks_map (g : Check σ → Check τ) (v : Validator σ) :
    checks (map g v) = (checks v).map g := by
  cases v with
  | single c => rfl
  | chain vs => exact checksOf_mapAll g vs

theorem checksOf_mapAll (g : Check σ → Check τ) (vs : List (Validator σ)) :
    checksOf (mapAll g vs) = (checksOf vs).map g := by
  cases vs with
  | nil => rfl
  | cons v vs =>
    rw [mapAll, checksOf, checksOf, checks_map g v, checksOf_mapAll g vs, List.map_append]

end

/-- The check does the same, and writes its call down beside the state. -/
def recorded (c : Check (ρ × σ)) : Check (ρ × σ × List (Call (ρ × σ))) :=
  fun m (r, s, calls) => do
    let (status, r', s') ← (c m).run (r, s)
    return (status, r', s', calls ++ [⟨c, r, s⟩])

/-- The factory that writes its calls down. -/
def recordedFactory (f : Factory σ) : Factory (σ × List (Call (Registry × σ))) :=
  ⟨mapAll recorded f.validators, recorded f.compliance, f.standardFields, f.toggles⟩

/-- The run `x` does what `run` does and writes its calls down behind those before. -/
structure Records (x : Run (ρ × σ × List (Call (ρ × σ)))) (before : List (Call (ρ × σ)))
    (run : Run (ρ × σ)) : Prop where
  status : x.status = run.status
  state : x.state = (run.state.1, run.state.2, before ++ run.calls)

theorem records_call (m : Message) (c : Check (ρ × σ)) (r : ρ) (s : σ)
    (before : List (Call (ρ × σ))) :
    Records (.call m (recorded c) (r, s, before)) before (.call m c (r, s)) := ⟨rfl, rfl⟩

theorem Records.andThen {x : Run (ρ × σ × List (Call (ρ × σ)))} {before : List (Call (ρ × σ))}
    {run : Run (ρ × σ)} {next : ρ × σ × List (Call (ρ × σ)) → Run (ρ × σ × List (Call (ρ × σ)))}
    {next' : ρ × σ → Run (ρ × σ)} (h : Records x before run)
    (hnext : ∀ r s calls, Records (next (r, s, calls)) calls (next' (r, s))) :
    Records (x.andThen next) before (run.andThen next') := by
  cases hstatus : run.status.hasError with
  | true =>
    rw [Run.andThen_error hstatus, Run.andThen_error (h.status ▸ hstatus)]
    exact h
  | false =>
    obtain ⟨hrest, hstate⟩ := hnext run.state.1 run.state.2 (before ++ run.calls)
    rw [Run.andThen_passed hstatus, Run.andThen_passed (h.status ▸ hstatus), h.state]
    exact ⟨hrest, by rw [hstate, List.append_assoc]⟩

theorem records_all (m : Message) (cs : List (Check (ρ × σ))) (r : ρ) (s : σ)
    (before : List (Call (ρ × σ))) :
    Records (.all m (cs.map recorded) (r, s, before)) before (.all m cs (r, s)) := by
  induction cs generalizing r s before with
  | nil => exact ⟨rfl, by rw [List.map_nil, Run.all, Run.all, Run.stay, Run.stay, List.append_nil]⟩
  | cons c cs ih => exact (records_call m c r s before).andThen ih

theorem Follows.value_recorded {y : Logged (Status × ρ × σ × List (Call (ρ × σ)))}
    {x : Run (ρ × σ × List (Call (ρ × σ)))} {run : Run (ρ × σ)} (h : Follows y x)
    (hx : Records x [] run) : y.value = (run.status, run.state.1, run.state.2, run.calls) := by
  rw [h.value, hx.status, hx.state, List.nil_append]

/-- A chain makes the calls of the checks of its tree from left to right up to the first error, with
the status and the state that these end with. A factory makes those of its own validators, then
those of the narrower scope, and then that of its last check if all have passed. -/
theorem chain_calls (m : Message) :
    (∀ (ρ σ : Type) (vs : List (Validator (ρ × σ))) (r : ρ) (s : σ),
      let run := Run.all m (checksOf vs) (r, s)
      Follows ((validate m (.chain vs)).run (r, s)) run ∧
      ((validate m (map recorded (.chain vs))).run (r, s, [])).value =
        (run.status, run.state.1, run.state.2, run.calls)) ∧
    ∀ (σ : Type) (f : Factory σ) (inner : List (Validator (Registry × σ))) (r : Registry) (s : σ),
      let run := (Run.all m (checksOf f.validators ++ checksOf inner) (r, s)).andThen
        (.call m f.compliance)
      Follows ((f.isCompliantWith m inner).run (r, s)) run ∧
      (((recordedFactory f).isCompliantWith m (mapAll recorded inner)).run (r, s, [])).value =
        (run.status, run.state.1, run.state.2, run.calls) := by
  constructor
  · intro ρ σ vs r s run
    refine ⟨follows_validateAll m 0 vs (r, s), ?_⟩
    have hrecorded := follows_validateAll m 0 (mapAll recorded vs) (r, s, [])
    rw [checksOf_mapAll] at hrecorded
    exact hrecorded.value_recorded (records_all m (checksOf vs) r s [])
  · intro σ f inner r s run
    refine ⟨follows_isCompliantWith f inner m (r, s), ?_⟩
    have hrecorded :=
      follows_isCompliantWith (recordedFactory f) (mapAll recorded inner) m (r, s, [])
    simp only [recordedFactory, checksOf_mapAll, ← List.map_append] at hrecorded
    exact hrecorded.value_recorded ((records_all m _ r s []).andThen (records_call m f.compliance))

end BusCompliance.Validator
