import Codegen.Proofs.Execution.Trace

/-! Logs of scripts: the handlers that were offered and the requests that were made while a script ran,
one after another, with those of the handlers it called at the place of the call. The handlers of a
state are those that the log of the run up to it offered last. -/
namespace Codegen

/-- A request as it is made, with the run before and after it. Within it, handlers may call one
another as deep as `left`. -/
structure Ask where
  left : Nat
  kind : String
  params : Value
  before : RunState
  after : RunState
  answer : Except Error Value

def Ask.request (a : Ask) : Request :=
  ⟨a.kind, a.params⟩

def Ask.Within (a : Ask) : Prop :=
  a.left = 0 → a.before.handlers.get a.kind = none

inductive Event where
  | offered (kind : String) (handler : Handler)
  | asked (a : Ask)

namespace Event

def offer? (kind : String) : Event → Option Handler
  | offered other handler => if other = kind then some handler else none
  | asked _ => none

def latest (log : List Event) (kind : String) : Option Handler :=
  (log.filterMap (offer? kind)).getLast?

theorem latestOffered (log : List Event) (other : String) (handler : Handler) (kind : String) :
    latest (log ++ [offered other handler]) kind =
      if other = kind then some handler else latest log kind := by
  unfold latest
  by_cases same : other = kind
  · simp [offer?, same]
  · simp [offer?, same]

theorem latestAsked (log : List Event) (a : Ask) (kind : String) :
    latest (log ++ [asked a]) kind = latest log kind := by
  simp [latest, offer?]

end Event

open Event (latest latestOffered latestAsked)

namespace Script

/-- A script runs in a view, where handlers may call one another as deep as `left`, and leaves a log. The
handlers that it calls run in its view. -/
inductive Ran (view : View) :
    Nat → Script → RunState → List Event → RunState → Except Error Value → Prop where
  | finish {left outcome state} : Ran view left (.finish outcome) state [] state outcome
  | look {left next state log final outcome}
      (rest : Ran view left (next view) state log final outcome) :
      Ran view left (.look next) state log final outcome
  | share {left act next state log final outcome}
      (rest : Ran view left (next (act state.space).2) { state with space := (act state.space).1 }
        log final outcome) :
      Ran view left (.share act next) state log final outcome
  | cached {left kind params next state log final outcome}
      (unhandled : state.handlers.get kind = none)
      (rest : Ran view left (next (state.cached ⟨kind, params⟩)) state log final outcome) :
      Ran view left (.request kind params next) state
        (.asked ⟨left, kind, params, state, state, state.cached ⟨kind, params⟩⟩ :: log) final outcome
  | called {left kind params next state handler inner after answer log final outcome}
      (handled : state.handlers.get kind = some handler)
      (call : Ran view left (handler.answer params) state inner after answer)
      (rest : Ran view (left + 1) (next answer) after log final outcome) :
      Ran view (left + 1) (.request kind params next) state
        (.asked ⟨left + 1, kind, params, state, after, answer⟩ :: (inner ++ log)) final outcome
  | limit {kind params next state handler log final outcome}
      (handled : state.handlers.get kind = some handler)
      (rest : Ran view 0 (next (.error .exhausted)) state log final outcome) :
      Ran view 0 (.request kind params next) state
        (.asked ⟨0, kind, params, state, state, .error .exhausted⟩ :: log) final outcome
  | offer {left kind handler next state log final outcome}
      (rest : Ran view left next (state.offer kind ⟨handler, view.profile.name⟩) log final outcome) :
      Ran view left (.offer kind handler next) state
        (.offered kind ⟨handler, view.profile.name⟩ :: log) final outcome
  | note {left value next state log final outcome}
      (rest : Ran view left next
        { state with notes := state.notes ++ [(view.profile.name, value)] } log final outcome) :
      Ran view left (.note value next) state log final outcome

variable {view : View} {left : Nat} {script : Script} {state final : RunState} {log : List Event}
  {outcome : Except Error Value}

def serve (view : View) : (left : Nat) → Script → RunState → RunState × Except Error Value
  | 0 => fun _ state => (state, .error .exhausted)
  | depth + 1 => run view depth

theorem runServes (view : View) (left : Nat) : run view left = runWith (serve view left) view := by
  cases left <;> rfl

def Free (log : List Event) : Prop :=
  ∀ a, .asked a ∈ log → a.Within

/-- Where no request came upon the limit, a greater one changes nothing. -/
theorem ranFurther {more : Nat} (ran : Ran view left script state log final outcome)
    (free : more = 0 ∨ Free log) : run view (left + more) script state = (final, outcome) := by
  induction ran with
  | finish => rw [runServes]; rfl
  | look rest ih | share rest ih | note rest ih =>
    rw [runServes] at ih ⊢
    exact ih free
  | offer rest ih =>
    rw [runServes] at ih ⊢
    exact ih (free.imp_right fun all a member => all a (List.mem_cons_of_mem _ member))
  | cached unhandled rest ih =>
    rw [runServes] at ih ⊢
    simp only [runWith, unhandled]
    exact ih (free.imp_right fun all a member => all a (List.mem_cons_of_mem _ member))
  | @called left _ _ _ _ _ _ _ _ _ _ _ handled call rest first second =>
    have inner := first (free.imp_right fun all a member =>
      all a (List.mem_cons_of_mem _ (List.mem_append_left _ member)))
    rw [runServes, Nat.add_right_comm left 1 more] at second ⊢
    simp only [runWith, handled, serve, inner]
    exact second (free.imp_right fun all a member =>
      all a (List.mem_cons_of_mem _ (List.mem_append_right _ member)))
  | limit handled rest ih =>
    rcases free with rfl | free
    · rw [runServes] at ih ⊢
      simp only [runWith, handled]
      exact ih (.inl rfl)
    · have unhandled := free _ List.mem_cons_self rfl
      rw [handled] at unhandled
      cases unhandled

theorem ranRun (ran : Ran view left script state log final outcome) :
    run view left script state = (final, outcome) :=
  ranFurther ran (.inl rfl)

theorem ranResults (ran : Ran view left script state log final outcome) :
    final.results = state.results := by
  have frame := runResults view left script state
  rwa [ranRun ran] at frame

/- By recursion over the script. The script of a handler is no part of it, but runs one level deeper. -/
theorem ranDeeper (deeper : ∀ depth, left = depth + 1 → ∀ script state,
      ∃ log final outcome, Ran view depth script state log final outcome)
    (script : Script) (state : RunState) :
    ∃ log final outcome, Ran view left script state log final outcome := by
  induction script generalizing state with
  | finish outcome => exact ⟨_, _, _, .finish⟩
  | look next ih =>
    obtain ⟨_, _, _, rest⟩ := ih view state
    exact ⟨_, _, _, .look rest⟩
  | share act next ih =>
    obtain ⟨_, _, _, rest⟩ := ih (act state.space).2 { state with space := (act state.space).1 }
    exact ⟨_, _, _, .share rest⟩
  | request kind params next ih =>
    cases handled : state.handlers.get kind with
    | none =>
      obtain ⟨_, _, _, rest⟩ := ih (state.cached ⟨kind, params⟩) state
      exact ⟨_, _, _, .cached handled rest⟩
    | some handler =>
      cases left with
      | zero =>
        obtain ⟨_, _, _, rest⟩ := ih (.error .exhausted) state
        exact ⟨_, _, _, .limit handled rest⟩
      | succ depth =>
        obtain ⟨_, after, answer, call⟩ := deeper depth rfl (handler.answer params) state
        obtain ⟨_, _, _, rest⟩ := ih answer after
        exact ⟨_, _, _, .called handled call rest⟩
  | offer kind handler next _ ih =>
    obtain ⟨_, _, _, rest⟩ := ih (state.offer kind ⟨handler, view.profile.name⟩)
    exact ⟨_, _, _, .offer rest⟩
  | note value next ih =>
    obtain ⟨_, _, _, rest⟩ := ih { state with notes := state.notes ++ [(view.profile.name, value)] }
    exact ⟨_, _, _, .note rest⟩

theorem ranSome (view : View) (left : Nat) (script : Script) (state : RunState) :
    ∃ log final outcome, Ran view left script state log final outcome := by
  induction left generalizing script state with
  | zero => exact ranDeeper (fun depth none => absurd none.symm (Nat.succ_ne_zero depth)) script state
  | succ depth ih =>
    refine ranDeeper (fun _ same => ?_) script state
    cases same
    exact ih

theorem ranLogged (ran : run view left script state = (final, outcome)) :
    ∃ log, Ran view left script state log final outcome := by
  obtain ⟨log, _, _, logged⟩ := ranSome view left script state
  cases ran.symm.trans (ranRun logged)
  exact ⟨log, logged⟩

theorem ranUnique {log' : List Event} {final' : RunState} {outcome' : Except Error Value}
    (ran : Ran view left script state log final outcome)
    (ran' : Ran view left script state log' final' outcome') : log = log' := by
  induction ran generalizing log' final' outcome' with
  | finish => cases ran'; rfl
  | look rest ih => cases ran' with | look rest' => exact ih rest'
  | share rest ih => cases ran' with | share rest' => exact ih rest'
  | note rest ih => cases ran' with | note rest' => exact ih rest'
  | offer rest ih => cases ran' with | offer rest' => rw [ih rest']
  | cached unhandled rest ih =>
    cases ran' with
    | cached _ rest' => rw [ih rest']
    | called handled => rw [unhandled] at handled; cases handled
    | limit handled => rw [unhandled] at handled; cases handled
  | called handled call rest first second =>
    cases ran' with
    | cached unhandled => rw [unhandled] at handled; cases handled
    | called handled' call' rest' =>
      cases handled.symm.trans handled'
      cases (ranRun call).symm.trans (ranRun call')
      rw [first call', second rest']
  | limit handled rest ih =>
    cases ran' with
    | cached unhandled => rw [unhandled] at handled; cases handled
    | limit _ rest' => rw [ih rest']

end Script

namespace RunState

def Offers (state : RunState) (past : List Event) : Prop :=
  ∀ kind, state.handlers.get kind = latest past kind

theorem offersOffered {state : RunState} {past : List Event} (offers : state.Offers past)
    (kind : String) (handler : Handler) :
    (state.offer kind handler).Offers (past ++ [.offered kind handler]) := by
  intro other
  have table : (state.offer kind handler).handlers.get other =
      (state.handlers.table.put kind handler).find? other := rfl
  rw [table, Table.findPut, latestOffered, ← offers other]
  simp only [eq_comm]
  rfl

theorem offersAsked {state : RunState} {past : List Event} (offers : state.Offers past) (a : Ask) :
    state.Offers (past ++ [.asked a]) :=
  fun kind => (offers kind).trans (latestAsked past a kind).symm

end RunState

inductive Ask.Answered (view : View) (past later : List Event) (a : Ask) : Prop where
  | called {depth handler inner more} (handled : latest past a.kind = some handler)
      (left : a.left = depth + 1) (next : later = inner ++ more)
      (ran : Script.Ran view depth (handler.answer a.params) a.before inner a.after a.answer)
  | cached (unhandled : latest past a.kind = none) (same : a.after = a.before)
      (answer : a.answer = a.before.cached a.request)

theorem Ask.answeredMore {view : View} {past later : List Event} {a : Ask}
    (answered : a.Answered view past later) (more : List Event) : a.Answered view past (later ++ more) := by
  cases answered with
  | called handled left next ran => exact .called handled left (by rw [next, List.append_assoc]) ran
  | cached unhandled same answer => exact .cached unhandled same answer

structure Ask.Kept (view : View) (state : RunState) (past later : List Event) (a : Ask) : Prop where
  answered : a.Within → a.Answered view past later
  offers : a.before.Offers past
  before : a.before.results = state.results
  after : a.after.results = state.results

namespace Script

variable {view : View} {left : Nat} {script : Script} {state final : RunState} {log past : List Event}
  {outcome : Except Error Value}

theorem ranOffers (ran : Ran view left script state log final outcome) (offers : state.Offers past) :
    final.Offers (past ++ log) := by
  induction ran generalizing past with
  | finish => rwa [List.append_nil]
  | look rest ih | share rest ih | note rest ih => exact ih offers
  | cached unhandled rest ih | limit handled rest ih =>
    rw [List.append_cons]
    exact ih (RunState.offersAsked offers _)
  | called handled call rest first second =>
    rw [List.append_cons, ← List.append_assoc]
    exact second (first (RunState.offersAsked offers _))
  | offer rest ih =>
    rw [List.append_cons]
    exact ih (RunState.offersOffered offers _ _)

theorem splitEvent {xs ys front back : List Event} {e : Event}
    (split : xs ++ ys = front ++ e :: back) :
    (∃ more, xs = front ++ e :: more ∧ back = more ++ ys) ∨
    (∃ more, front = xs ++ more ∧ ys = more ++ e :: back) := by
  rcases List.append_eq_append_iff.mp split with ⟨more, first, second⟩ | ⟨more, first, second⟩
  · exact .inr ⟨more, first, second⟩
  · cases more with
    | nil => exact .inr ⟨[], by simpa using first.symm, second.symm⟩
    | cons other more =>
      obtain ⟨rfl, rest⟩ := List.cons.inj second
      exact .inl ⟨more, first, rest⟩

/- By induction on the run, with all that was logged before it. The handler's own log stands between a
request that is called and what follows it. -/
theorem ranAsks {sooner later : List Event} {a : Ask}
    (ran : Ran view left script state log final outcome) (offers : state.Offers past)
    (split : log = sooner ++ .asked a :: later) : a.Kept view state (past ++ sooner) later := by
  induction ran generalizing past sooner later a with
  | finish => simp at split
  | look rest ih => exact ih offers split
  | share rest ih | note rest ih =>
    obtain ⟨answered, offered, before, after⟩ := ih offers split
    exact ⟨answered, offered, before, after⟩
  | cached unhandled rest ih =>
    rcases List.cons_eq_append_iff.mp split with ⟨rfl, here⟩ | ⟨front, rfl, further⟩
    · cases here
      rw [List.append_nil]
      exact ⟨fun _ => .cached (offers _ ▸ unhandled) rfl rfl, offers, rfl, rfl⟩
    · rw [List.append_cons]
      exact ih (RunState.offersAsked offers _) further
  | limit handled rest ih =>
    rcases List.cons_eq_append_iff.mp split with ⟨rfl, here⟩ | ⟨front, rfl, further⟩
    · cases here
      rw [List.append_nil]
      refine ⟨fun within => ?_, offers, rfl, rfl⟩
      cases handled.symm.trans (within rfl)
    · rw [List.append_cons]
      exact ih (RunState.offersAsked offers _) further
  | called handled call rest first second =>
    rcases List.cons_eq_append_iff.mp split with ⟨rfl, here⟩ | ⟨front, rfl, further⟩
    · cases here
      rw [List.append_nil]
      exact ⟨fun _ => .called (offers _ ▸ handled) rfl rfl call, offers, rfl, ranResults call⟩
    · have asked := RunState.offersAsked offers
      rw [List.append_cons]
      -- made by the handler, or after it has answered
      rcases splitEvent further with ⟨more, within, rfl⟩ | ⟨more, rfl, behind⟩
      · obtain ⟨answered, offered, before, after⟩ := first (asked _) within
        exact ⟨fun inside => Ask.answeredMore (answered inside) _, offered, before, after⟩
      · rw [← List.append_assoc]
        obtain ⟨answered, offered, before, after⟩ := second (ranOffers call (asked _)) behind
        exact ⟨answered, offered, before.trans (ranResults call), after.trans (ranResults call)⟩
  | offer rest ih =>
    rcases List.cons_eq_append_iff.mp split with ⟨_, here⟩ | ⟨front, rfl, further⟩
    · cases here
    · rw [List.append_cons]
      obtain ⟨answered, offered, before, after⟩ := ih (RunState.offersOffered offers _ _) further
      exact ⟨answered, offered, before, after⟩

end Script
end Codegen
