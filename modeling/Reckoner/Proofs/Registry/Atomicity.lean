import Reckoner.NumberSystem.Integer
import Reckoner.Proofs.Outcome
import Reckoner.Proofs.Registry.History

/-! Registrations entry by entry. A registration looks at the registry and enters one key after the other, and
a refusal in between would leave a part of it behind. All questions to the registry stand before the first entry, so a
refused registration leaves nothing. Only the announcement of a descriptor comes after the last entry, and where it
fails the descriptor stays. -/

namespace Reckoner.Registry

open Reckoner.Unicode

variable {α β γ : Type}

/-! ### Runs that can stop half way -/

/-- What runs on a registry until a refusal stops it. What has been entered by then stays. -/
abbrev Run (α β : Type) := ExceptT Refusal (StateM (Registry α)) β

namespace Run

def on (run : Run α β) (registry : Registry α) : Except Refusal β × Registry α :=
  StateT.run (ExceptT.run run) registry

/-- Asks the registry as it is at that point. -/
def ask (question : Registry α → Except Refusal β) : Run α β := do
  match question (← get) with
  | .ok answer => return answer
  | .error refusal => throw refusal

/-- Changes the registry for each name, in order. -/
def forNames (change : String → Registry α → Registry α) (names : List String) : Run α Unit :=
  names.forM fun name => modify (change name)

theorem on_bind (first : Run α β) (next : β → Run α γ) (registry : Registry α) :
    (first >>= next).on registry = match first.on registry with
      | (.ok x, left) => (next x).on left
      | (.error refusal, left) => (.error refusal, left) := by
  change StateT.run (first.run >>= ExceptT.bindCont next) registry = _
  rw [StateT.run_bind]
  change ExceptT.bindCont next (first.on registry).1 (first.on registry).2 = _
  rcases first.on registry with ⟨outcome, left⟩
  cases outcome <;> rfl

@[simp] theorem on_modify (change : Registry α → Registry α) (registry : Registry α) :
    on (modify change) registry = (.ok ⟨⟩, change registry) := rfl

@[simp] theorem on_ask (question : Registry α → Except Refusal β) (registry : Registry α) :
    (ask question).on registry = (question registry, registry) := by
  rw [ask, on_bind]
  change on (match question registry with
    | .ok answer => pure answer
    | .error refusal => throw refusal) registry = _
  cases question registry <;> rfl

theorem on_forNames (change : String → Registry α → Registry α) (names : List String)
    (registry : Registry α) : (forNames change names).on registry =
      (.ok ⟨⟩, names.foldl (fun left name => change name left) registry) := by
  induction names generalizing registry with
  | nil => rfl
  | cons name rest ih =>
    change on (modify (change name) >>= fun _ => forNames change rest) registry = _
    rw [on_bind, on_modify]
    exact ih (change name registry)

end Run

/-! ### Registrations entry by entry -/

/-- The calls that register something and may be refused. -/
inductive Registering (α : Type) where
  | constant (name : String) (value : Datum) (overwrite : Bool)
  | binding (name : String) (value : Datum)
  | function (function : NamedFunction α)
  | unary (operator : UnaryOperator α)
  | binary (operator : BinaryOperator α)

def putFunction (item : Registered (NamedFunction α)) (name : String) (registry : Registry α) :
    Registry α :=
  { registry with functions := registry.functions.insert (fold name) item }

def putUnary (item : Registered (UnaryOperator α)) (name : String) (registry : Registry α) :
    Registry α :=
  { registry with unary := registry.unary.insert (fold name) item }

def putBinary (item : Registered (BinaryOperator α)) (name : String) (registry : Registry α) :
    Registry α :=
  { registry with binary := registry.binary.insert (fold name) item }

/-- Lists one name of a function or operator, unless one of its folding is listed. -/
def putName (name : String) (registry : Registry α) : Registry α :=
  { registry with names := registry.names.insertNew (fold name) name }

def askNames (isFunction : Bool) (names : List String) : Run α Unit :=
  names.forM fun name => Run.ask (·.checkFunctionNames isFunction [name])

/-- A function or an operator: its names are asked for one by one, then it is put under each of them, then
each of them is listed. -/
def enterCallable (isFunction : Bool) (put : Nat → String → Registry α → Registry α)
    (names : List String) : Run α Unit := do
  askNames isFunction names
  let serial ← Run.ask fun registry => .ok registry.nextSerial
  Run.forNames (put serial) names
  Run.forNames putName names
  modify fun registry => { registry with nextSerial := registry.nextSerial + 1 }

/-- A descriptor is announced when all is entered. -/
def announce (descriptor : Descriptor α) : Run α String :=
  Run.ask fun _ => descriptor.announcement.mapError .failed

namespace Registering

/-- A registration, question by question and entry by entry. -/
def run : Registering α → Run α Unit
  | constant name datum overwrite => do
    Run.ask (·.checkValueName name .fixed)
    Run.ask fun registry =>
      if registry.constants.contains (fold name) && !overwrite then
        .error (.refused ⟨.nameConflict, "Constant '" ++ name ++ "' is already defined"⟩)
      else .ok ()
    let value ← Run.ask (·.coerce name datum)
    modify (·.storeConstant name value)
  | binding name datum => do
    Run.ask (·.checkValueName name .settable)
    let value ← Run.ask (·.coerce name datum)
    modify fun registry => { registry with bindings := registry.bindings.insert name value }
  | function f => do
    enterCallable true (fun serial => putFunction ⟨serial, f⟩) f.names
    let _ ← announce (.function f)
  | unary operator => do
    enterCallable false (fun serial => putUnary ⟨serial, operator⟩) operator.names
    let _ ← announce (.unary operator)
  | binary operator => do
    enterCallable false (fun serial => putBinary ⟨serial, operator⟩) operator.names
    let _ ← announce (.binary operator)

/-- The same registration as one step of the registry. -/
def step (registry : Registry α) : Registering α → Attempt α
  | constant name datum overwrite => registry.attempt (registry.addConstant name datum overwrite)
  | binding name datum => registry.attempt (registry.setVariable name datum)
  | function f => registry.register (.function f)
  | unary operator => registry.register (.unary operator)
  | binary operator => registry.register (.binary operator)

/-- All that the registration enters, if the registry lets it. -/
def entered (registry : Registry α) : Registering α → Except Refusal (Registry α)
  | constant name datum overwrite => registry.addConstant name datum overwrite
  | binding name datum => registry.setVariable name datum
  | function f => registry.enterFunction f
  | unary operator => registry.enterUnary operator
  | binary operator => registry.enterBinary operator

def call : Registering α → Call α
  | constant name datum overwrite => .value (.addConstant name datum overwrite)
  | binding name datum => .value (.setVariable name datum)
  | function f => .addFunction f
  | unary operator => .addUnary operator
  | binary operator => .addBinary operator

end Registering

/-! ### What a run does is one step or nothing -/

theorem checkFunctionNames_cons (registry : Registry α) (isFunction : Bool) (name : String)
    (rest : List String) : registry.checkFunctionNames isFunction (name :: rest) =
      (registry.checkFunctionNames isFunction [name] >>= fun _ =>
        registry.checkFunctionNames isFunction rest) := by
  simp only [checkFunctionNames]
  split
  · rfl
  split
  · rfl
  split
  · rfl
  split <;> rfl

theorem on_askNames (isFunction : Bool) (names : List String) (registry : Registry α) :
    (askNames isFunction names).on registry =
      (registry.checkFunctionNames isFunction names, registry) := by
  induction names with
  | nil => rfl
  | cons name rest ih =>
    change Run.on (Run.ask (·.checkFunctionNames isFunction [name]) >>= fun _ =>
      askNames isFunction rest) registry = _
    rw [Run.on_bind, Run.on_ask, checkFunctionNames_cons registry isFunction name rest]
    cases registry.checkFunctionNames isFunction [name] with
    | ok => exact ih
    | error refusal => rfl

theorem foldl_putFunction (item : Registered (NamedFunction α)) (names : List String)
    (registry : Registry α) :
    names.foldl (fun left name => putFunction item name left) registry =
      { registry with functions := enter names item registry.functions } :=
  List.foldl_hom (fun functions => { registry with functions }) fun _ _ => rfl

theorem foldl_putUnary (item : Registered (UnaryOperator α)) (names : List String)
    (registry : Registry α) :
    names.foldl (fun left name => putUnary item name left) registry =
      { registry with unary := enter names item registry.unary } :=
  List.foldl_hom (fun unary => { registry with unary }) fun _ _ => rfl

theorem foldl_putBinary (item : Registered (BinaryOperator α)) (names : List String)
    (registry : Registry α) :
    names.foldl (fun left name => putBinary item name left) registry =
      { registry with binary := enter names item registry.binary } :=
  List.foldl_hom (fun binary => { registry with binary }) fun _ _ => rfl

theorem foldl_putName (names : List String) (registry : Registry α) :
    names.foldl (fun left name => putName name left) registry =
      { registry with names := remember names registry.names } :=
  List.foldl_hom (fun names => { registry with names }) fun _ _ => rfl

theorem on_enterCallable (isFunction : Bool) (put : Nat → String → Registry α → Registry α)
    (names : List String) (registry : Registry α) :
    (enterCallable isFunction put names).on registry =
      match registry.checkFunctionNames isFunction names with
      | .ok _ =>
        let left := names.foldl (fun left name => put registry.nextSerial name left) registry
        (.ok ⟨⟩, { left with names := remember names left.names, nextSerial := left.nextSerial + 1 })
      | .error refusal => (.error refusal, registry) := by
  rw [enterCallable, Run.on_bind, on_askNames]
  cases registry.checkFunctionNames isFunction names with
  | error refusal => rfl
  | ok =>
    simp only [Run.on_bind, Run.on_ask, Run.on_forNames, Run.on_modify, foldl_putName]

theorem on_announce (descriptor : Descriptor α) (registry : Registry α) :
    (announce descriptor).on registry = (descriptor.announcement.mapError .failed, registry) :=
  Run.on_ask _ _

theorem on_enterCallable_announce {run : Run α Unit} {registry : Registry α} {descriptor : Descriptor α}
    (ran : run.on registry = match registry.enterDescriptor descriptor with
      | .ok next => (.ok ⟨⟩, next)
      | .error refusal => (.error refusal, registry)) :
    Run.on (do
        run
        let _ ← announce descriptor) registry =
      match registry.register descriptor with
      | (next, none) => (.ok ⟨⟩, next)
      | (left, some refusal) => (.error refusal, left) := by
  rw [Run.on_bind, ran, register]
  cases registry.enterDescriptor descriptor with
  | error refusal => rfl
  | ok next =>
    simp only [Run.on_bind, on_announce]
    cases descriptor.announcement <;> rfl

namespace Registering

/-- Entry by entry a registration comes to what the one step comes to, and leaves the same. -/
theorem on_run (registering : Registering α) (registry : Registry α) :
    registering.run.on registry = match registering.step registry with
      | (next, none) => (.ok ⟨⟩, next)
      | (left, some refusal) => (.error refusal, left) := by
  cases registering with
  | constant name datum overwrite =>
    simp only [run, step, addConstant, checkConstant, Run.on_bind, Run.on_ask]
    cases registry.checkValueName name .fixed with
    | error refusal => rfl
    | ok =>
      by_cases defined : (registry.constants.contains (fold name) && !overwrite) = true
      · simp only [if_pos defined]
        rfl
      · simp only [if_neg defined]
        cases registry.coerce name datum <;> rfl
  | binding name datum =>
    simp only [run, step, setVariable, Run.on_bind, Run.on_ask]
    cases registry.checkValueName name .settable with
    | error refusal => rfl
    | ok =>
      cases coerced : registry.coerce name datum <;> simp only [coerced] <;> rfl
  | function f =>
    refine on_enterCallable_announce ?_
    simp only [enterDescriptor, enterFunction, on_enterCallable, foldl_putFunction]
    cases registry.checkFunctionNames true f.names <;> rfl
  | unary operator =>
    refine on_enterCallable_announce ?_
    simp only [enterDescriptor, enterUnary, on_enterCallable, foldl_putUnary]
    cases registry.checkFunctionNames false operator.names <;> rfl
  | binary operator =>
    refine on_enterCallable_announce ?_
    simp only [enterDescriptor, enterBinary, on_enterCallable, foldl_putBinary]
    cases registry.checkFunctionNames false operator.names <;> rfl

/-- A call leaves the registry that its run entry by entry leaves. -/
theorem perform_call (registering : Registering α) (registry : Registry α) :
    registry.perform registering.call = (registering.run.on registry).2 := by
  have stepped : registry.perform registering.call = (registering.step registry).1 := by
    cases registering with
    | constant | binding => exact (registry.attempt_left _).symm
    | _ => rfl
  rw [stepped, on_run]
  rcases registering.step registry with ⟨left, refusal | refusal⟩ <;> rfl

end Registering

/-! ### Registrations that are refused -/

namespace Registering

variable {registering : Registering α} {registry next : Registry α} {refusal : Refusal}

theorem step_of_refused (refused : registering.entered registry = .error refusal) :
    registering.step registry = (registry, some refusal) := by
  cases registering with
  | constant | binding => exact congrArg registry.attempt refused
  | function f =>
    change registry.register (.function f) = _
    exact register_of_refused refused
  | unary operator =>
    change registry.register (.unary operator) = _
    exact register_of_refused refused
  | binary operator =>
    change registry.register (.binary operator) = _
    exact register_of_refused refused

/-- What the registry lets in stays, and is refused only if it cannot be announced. -/
theorem step_of_entered (entered : registering.entered registry = .ok next) :
    registering.step registry =
      (next, if registering.call.Writable then none else some (.failed NumberSystem.tooLong)) := by
  cases registering with
  | constant | binding => exact congrArg registry.attempt entered
  | function f =>
    change registry.register (.function f) = _
    exact register_of_entered entered
  | unary operator =>
    change registry.register (.unary operator) = _
    exact register_of_entered entered
  | binary operator =>
    change registry.register (.binary operator) = _
    exact register_of_entered entered

end Registering

/-- After any calls, a registration that is refused leaves the registry as it was, every table with its order, and so
whatever calls follow, all as if it had not been tried. The one exception is a descriptor whose announcement needs a
number of too many digits: it is refused when all of it has been entered, and stays. -/
theorem refused_leaves_nothing (system : NumberSystem α) (settings : Settings) (calls : List (Call α))
    (registering : Registering α) {refusal : Refusal} {left : Registry α}
    (refused : registering.run.on (afterCalls system settings calls) = (.error refusal, left)) :
    (left = afterCalls system settings calls ∧
      ∀ later, afterCalls system settings (calls ++ registering.call :: later) =
        afterCalls system settings (calls ++ later)) ∨
    (¬ registering.call.Writable ∧ refusal = .failed NumberSystem.tooLong ∧
      registering.entered (afterCalls system settings calls) = .ok left) := by
  rw [registering.on_run] at refused
  cases entered : registering.entered (afterCalls system settings calls) with
  | error earlier =>
    rw [Registering.step_of_refused entered] at refused
    cases refused
    refine .inl ⟨rfl, ?_⟩
    intro later
    have performed : (afterCalls system settings calls).perform registering.call =
        afterCalls system settings calls := by
      rw [registering.perform_call, registering.on_run, Registering.step_of_refused entered]
    rw [afterCalls, afterCalls, List.foldl_append, List.foldl_append, List.foldl_cons]
    exact congrArg (later.foldl perform) performed
  | ok next =>
    rw [Registering.step_of_entered entered] at refused
    by_cases writable : registering.call.Writable
    · rw [if_pos writable] at refused
      cases refused
    · rw [if_neg writable] at refused
      cases refused
      exact .inr ⟨writable, rfl, rfl⟩

/-- A function whose last alias is a constant in another spelling. -/
theorem refused_leaves_nothing_sample :
    let system := NumberSystem.Integer.system ⟨none⟩
    let calls := [.value (.addConstant "Pi" (.int 3) false)]
    let registering : Registering Int :=
      .function ⟨⟨"f", ["g", "h", "PI"], none⟩, 0, none, fun _ _ => .ok 0⟩
    ∃ refusal left,
      registering.run.on (afterCalls system Settings.standard calls) = (.error refusal, left) ∧
        left = afterCalls system Settings.standard calls := by
  intro system calls registering
  have taken : ((afterCalls system Settings.standard calls).checkFunctionNames true
      ["f", "g", "h", "PI"]).toOption = none := by with_unfolding_all decide
  obtain ⟨refusal, entered⟩ : ∃ refusal,
      registering.entered (afterCalls system Settings.standard calls) = .error refusal := by
    cases checked : (afterCalls system Settings.standard calls).checkFunctionNames true
        ["f", "g", "h", "PI"] with
    | ok => cases checked ▸ taken
    | error refusal => exact ⟨refusal, bind_eq_error.mpr (.inl checked)⟩
  have stopped : registering.run.on (afterCalls system Settings.standard calls) =
      (.error refusal, afterCalls system Settings.standard calls) := by
    rw [Registering.on_run, Registering.step_of_refused entered]
  refine ⟨refusal, _, stopped, ?_⟩
  rcases refused_leaves_nothing system Settings.standard calls registering stopped with same | late
  · exact same.1
  · cases entered.symm.trans late.2.2

/-- An operator whose precedence has too many digits to be announced is refused, and is there afterwards. -/
theorem refused_leaves_operator :
    let registering : Registering Int :=
      .binary ⟨⟨"plus", [], none⟩, 10 ^ Numeral.digitLimit, .left, fun x y => .ok (x + y)⟩
    let registry := afterCalls (NumberSystem.Integer.system ⟨none⟩) Settings.standard []
    ∃ left, registering.run.on registry = (.error (.failed NumberSystem.tooLong), left) ∧
      registry.functionNames = [] ∧ left.functionNames = ["plus"] ∧ left ≠ registry := by
  generalize count : (10 : Int) ^ Numeral.digitLimit = precedence
  intro registering registry
  have long : ¬ registering.call.Writable := by
    have ten : (10 : Int).natAbs = 10 := rfl
    have digits : precedence.natAbs = 10 ^ Numeral.digitLimit := by rw [← count, Int.natAbs_pow, ten]
    exact fun short => Nat.ne_of_lt short digits
  have entered : registering.entered registry = .ok _ := rfl
  have listed : registry.functionNames = [] := rfl
  refine ⟨_, by rw [registering.on_run, Registering.step_of_entered entered, if_neg long], listed, rfl, ?_⟩
  intro same
  cases congrArg functionNames same

end Reckoner.Registry
