import Lisplet.Proofs.BindingForms
import Lisplet.Proofs.ScopeHolders

/-!
# Rounds of a loop

A loop is told as a row of rounds. A round opens a scope inside the one around the loop, which is none of those
that there were before, and binds the loop variables in it; its test, its body and its steps are evaluated
there. A round that goes on leads to the next one, and the last one ends the loop. All that the loop itself does
to the store is to open these scopes. The evaluation of expressions may do what it likes, as long as it only
makes changes that a store may undergo.
-/

namespace Lisplet

/-- What is among the names of a table is found. -/
theorem Table.exists_find?_of_mem_names {α : Type} {name : Text} {t : Table α} (h : name ∈ t.names) :
    ∃ a, t.find? name = some a := by
  induction t with
  | nil => exact absurd h List.not_mem_nil
  | cons entry t ih =>
    obtain ⟨other, a⟩ := entry
    by_cases he : other = name
    · exact ⟨a, he ▸ find?_cons_self other a t⟩
    · rw [find?_cons_of_ne he]
      exact ih ((List.mem_cons.mp h).resolve_left (Ne.symm he))

namespace Forms

/-! ### Loops as they are written -/

/-- A loop variable is written as a list of its name, its first expression and perhaps its step. -/
def LoopVariable.IsWritten (x : LoopVariable) (v : Value) : Prop :=
  ∃ id, v = .list id (.sym x.name) (x.init :: x.step.toList) none

/-- The operands that a loop is written as. -/
inductive Loop.IsWritten (loop : Loop) : List Value → Prop
  | intro {spec : Value} (id : ObjectId) (hproper : spec.isProper = true)
      (hvars : List.Forall₂ LoopVariable.IsWritten loop.vars spec.items) :
      IsWritten loop (spec :: .list id loop.test loop.results none :: loop.body)

theorem readVariables_of_written {vars : List LoopVariable} {items : List Value}
    (h : List.Forall₂ LoopVariable.IsWritten vars items) (nesting : Nat) :
    readVariables nesting items = pure vars := by
  induction h with
  | nil => rfl
  | @cons x v vars items hx hvars ih =>
    obtain ⟨name, init, step⟩ := x
    obtain ⟨id, rfl⟩ := hx
    cases step with
    | none =>
      rw [Option.toList_none, readVariables, ih]
      rfl
    | some step =>
      rw [Option.toList_some, readVariables, ih]
      rfl

/-- Every loop of the right shape is written so. -/
theorem HasShape.exists_isWritten {operands : List Value} (h : HasShape .loop operands) :
    ∃ loop : Loop, loop.IsWritten operands := by
  cases h with
  | @loop spec finish body hspec hfinish =>
    obtain ⟨hproper, hitems⟩ := hspec
    obtain ⟨id, test, results, rfl⟩ := hfinish
    have hvars : ∃ vars, List.Forall₂ LoopVariable.IsWritten vars spec.items := by
      generalize spec.items = items at hitems
      induction items with
      | nil => exact ⟨[], .nil⟩
      | cons v items ih =>
        obtain ⟨vars, hvars⟩ := ih fun w hw => hitems w (List.mem_cons_of_mem v hw)
        obtain ⟨id, name, init, rfl | ⟨step, rfl⟩⟩ := hitems v List.mem_cons_self
        · exact ⟨⟨name, init, none⟩ :: vars, .cons ⟨id, rfl⟩ hvars⟩
        · exact ⟨⟨name, init, some step⟩ :: vars, .cons ⟨id, rfl⟩ hvars⟩
    obtain ⟨vars, hvars⟩ := hvars
    exact ⟨⟨vars, test, results, body⟩, .intro id hproper hvars⟩

/-- A loop begins with the first values of its variables, and goes on with its rounds. -/
theorem Loop.IsWritten.run_eq {loop : Loop} {operands : List Value} (h : loop.IsWritten operands) (ev : Evaluator)
    (outer : ScopeId) : SpecialForm.loop.run ev operands outer = (do
      let values ← ev.operands outer (loop.vars.map (·.init))
      let first ← Action.newScope outer (tableOf (loop.vars.map (·.name)) values)
      rounds ev loop outer ev.rounds first) := by
  cases h with
  | intro id hproper hvars =>
    rw [SpecialForm.run, Forms.loop, readLoop, if_pos hproper, readVariables_of_written hvars]
    rfl

/-! ### Values in turn -/

/-- Where a value for a loop variable comes from. -/
inductive Source where
  /-- An expression that is evaluated. -/
  | expression (expr : Value)
  /-- A variable of the scope itself, which keeps its value. -/
  | own (name : Text)

/-- Where the next value of a loop variable comes from. -/
def LoopVariable.source (x : LoopVariable) : Source := x.step.elim (.own x.name) .expression

/-- The outcome with one value more in front. -/
def withFirst (v : Value) : EStateM.Result Signal Store (List Value) → EStateM.Result Signal Store (List Value)
  | .ok vs s => .ok (v :: vs) s
  | .error e s => .error e s

/-- Values are found from left to right, all seen from one scope, and each in the store that the ones before
it have left; the first expression that ends with a signal ends it all. -/
inductive InTurn (ev : Evaluator) (scope : ScopeId) :
    List Source → Store → EStateM.Result Signal Store (List Value) → Prop
  | nil (s : Store) : InTurn ev scope [] s (.ok [] s)
  | fails {expr : Value} {s s' : Store} {e : Signal} (h : ev.eval expr scope s = .error e s')
      (more : List Source) : InTurn ev scope (.expression expr :: more) s (.error e s')
  | evaluated {expr v : Value} {s s' : Store} {more : List Source}
      {outcome : EStateM.Result Signal Store (List Value)} (h : ev.eval expr scope s = .ok v s')
      (hmore : InTurn ev scope more s' outcome) :
      InTurn ev scope (.expression expr :: more) s (withFirst v outcome)
  | kept {name : Text} {v : Value} {s : Store} {more : List Source}
      {outcome : EStateM.Result Signal Store (List Value)} (h : s.scopes.here? scope name = some v)
      (hmore : InTurn ev scope more s outcome) :
      InTurn ev scope (.own name :: more) s (withFirst v outcome)

/-- An action whose value gets one value more in front. -/
theorem withFirst_eq (v : Value) (act : Action (List Value)) (s : Store) :
    (act >>= fun vs => pure (v :: vs)) s = withFirst v (act s) := by
  cases hact : act s with
  | ok vs s' => exact bind_of_ok hact
  | error e s' => exact bind_of_error hact

section

variable {ev : Evaluator} {scope : ScopeId} {s s' : Store}

/-- The values of operands are found in turn. -/
theorem operands_inTurn (exprs : List Value) :
    InTurn ev scope (exprs.map .expression) s (ev.operands scope exprs s) := by
  induction exprs generalizing s with
  | nil => exact .nil s
  | cons expr exprs ih =>
    rw [Evaluator.operands, List.mapM_cons]
    cases heval : ev.eval expr scope s with
    | error e s' =>
      rw [bind_of_error heval]
      exact .fails heval _
    | ok v s' =>
      rw [bind_of_ok heval]
      exact (withFirst_eq v (ev.operands scope exprs) s').symm ▸ .evaluated heval ih

/-- All values are found or none. -/
theorem InTurn.length_eq {sources : List Source} {outcome : EStateM.Result Signal Store (List Value)}
    (h : InTurn ev scope sources s outcome) {vs : List Value} (hvs : outcome = .ok vs s') :
    vs.length = sources.length := by
  induction h generalizing vs with
  | nil =>
    cases hvs
    rfl
  | fails h more => cases hvs
  | @evaluated expr v s s₁ more outcome h hmore ih =>
    cases outcome with
    | error e s' => cases hvs
    | ok ws s' =>
      cases hvs
      exact congrArg Nat.succ (ih rfl)
  | @kept name v s more outcome h hmore ih =>
    cases outcome with
    | error e s' => cases hvs
    | ok ws s' =>
      cases hvs
      exact congrArg Nat.succ (ih rfl)

/-- Values that are found in turn are found while the store undergoes changes only. -/
theorem InTurn.evolves (h : ev.Evolving) {sources : List Source}
    {outcome : EStateM.Result Signal Store (List Value)} (hturn : InTurn ev scope sources s outcome)
    (hs : s.WellFormed) (hscope : scope < s.scopes.size) {vs : List Value} (hvs : outcome = .ok vs s') :
    s.Evolves s' := by
  induction hturn generalizing vs with
  | nil =>
    cases hvs
    exact .refl _
  | fails h more => cases hvs
  | @evaluated expr v s s₁ more outcome heval hmore ih =>
    have hevolves : s.Evolves s₁ := Action.after_of_ok heval ▸ (h.eval expr hscope hs).1
    cases outcome with
    | error e s' => cases hvs
    | ok ws s' =>
      cases hvs
      exact hevolves.trans (ih (hevolves.wellFormed hs) (hevolves.exists_of_exists hscope) rfl)
  | @kept name v s more outcome hhere hmore ih =>
    cases outcome with
    | error e s' => cases hvs
    | ok ws s' =>
      cases hvs
      exact ih hs hscope rfl

end

/-- A scope is there and binds some names. -/
def Binds (s : Store) (scope : ScopeId) (names : List Text) : Prop :=
  ∃ sc, s.scopes[scope]? = some sc ∧ names ⊆ sc.bindings.names

theorem Binds.evolves {s s' : Store} {scope : ScopeId} {names : List Text} (h : Binds s scope names)
    (hevolves : s.Evolves s') : Binds s' scope names := by
  obtain ⟨sc, hsc, hnames⟩ := h
  obtain ⟨sc', hsc', hkept⟩ := hevolves.survives.scopes scope sc hsc
  exact ⟨sc', hsc', List.Subset.trans hnames hkept.bindings⟩

theorem Binds.lt_size {s : Store} {scope : ScopeId} {names : List Text} (h : Binds s scope names) :
    scope < s.scopes.size := by
  obtain ⟨sc, hsc, _⟩ := h
  exact Scopes.lt_size hsc

/-- A name that a scope binds is looked up in the scope itself. -/
theorem Binds.lookup_eq {s : Store} {scope : ScopeId} {names : List Text} (h : Binds s scope names) {name : Text}
    (hname : name ∈ names) :
    ∃ v, s.scopes.here? scope name = some v ∧ Action.lookup scope name s = .ok v s := by
  obtain ⟨sc, hsc, hnames⟩ := h
  obtain ⟨v, hv⟩ := Table.exists_find?_of_mem_names (hnames hname)
  refine ⟨v, ?_, ?_⟩
  · rw [Scopes.here?, hsc]
    exact hv
  · have hlookup : s.scopes.lookup? scope name = some v := by
      rw [Scopes.lookup?, Scopes.search, Scopes.searchFrom, hsc]
      dsimp only
      rw [hv]
    rw [Action.lookup, get_bind, hlookup]
    rfl

/-- The next values of loop variables that a scope binds are found in turn. -/
theorem nextValues_inTurn {ev : Evaluator} (h : ev.Evolving) {scope : ScopeId} {names : List Text}
    {vars : List LoopVariable} (hvars : ∀ x ∈ vars, x.name ∈ names) {s : Store} (hs : s.WellFormed)
    (hbinds : Binds s scope names) :
    InTurn ev scope (vars.map LoopVariable.source) s (nextValues ev scope vars s) := by
  induction vars generalizing s with
  | nil => exact .nil s
  | cons x more ih =>
    obtain ⟨hx, hmore⟩ := List.forall_mem_cons.mp hvars
    obtain ⟨name, init, step⟩ := x
    cases step with
    | none =>
      obtain ⟨v, hhere, hlookup⟩ := hbinds.lookup_eq hx
      have hrun : nextValues ev scope (⟨name, init, none⟩ :: more) s =
          withFirst v (nextValues ev scope more s) := (bind_of_ok hlookup).trans (withFirst_eq v _ s)
      rw [hrun]
      exact .kept hhere (ih hmore hs hbinds)
    | some expr =>
      cases heval : ev.eval expr scope s with
      | error e s' =>
        have hrun : nextValues ev scope (⟨name, init, some expr⟩ :: more) s = .error e s' := bind_of_error heval
        rw [hrun]
        exact .fails heval _
      | ok v s' =>
        have hevolves : s.Evolves s' := Action.after_of_ok heval ▸ (h.eval expr hbinds.lt_size hs).1
        have hrun : nextValues ev scope (⟨name, init, some expr⟩ :: more) s =
            withFirst v (nextValues ev scope more s') := (bind_of_ok heval).trans (withFirst_eq v _ s')
        rw [hrun]
        exact .evaluated heval (ih hmore (hevolves.wellFormed hs) (hbinds.evolves hevolves))

/-! ### Scopes of rounds -/

/-- A table has exactly these names, and each of them with the last of its values. -/
structure Holds (t : Table Value) (names : List Text) (values : List Value) : Prop where
  nodup : t.names.Nodup
  mem_names : ∀ name, name ∈ t.names ↔ name ∈ names
  find? : ∀ name, t.find? name = Table.find? name (names.zip values).reverse

theorem tableOf_eq (names : List Text) (values : List Value) : tableOf names values =
    (names.zip values).foldl (fun t entry => Table.put entry.1 entry.2 t) [] := rfl

/-- What is found in the entries of a row is among their names, and the other way round. -/
theorem mem_names_reverse_zip {names : List Text} {values : List Value} (h : values.length = names.length)
    (name : Text) : name ∈ Table.names (names.zip values).reverse ↔ name ∈ names := by
  rw [Table.names, List.map_reverse, List.mem_reverse, List.map_fst_zip (Nat.le_of_eq h.symm)]

theorem tableOf_holds {names : List Text} {values : List Value} (h : values.length = names.length) :
    Holds (tableOf names values) names values := by
  have hfind : ∀ name, (tableOf names values).find? name = Table.find? name (names.zip values).reverse := by
    intro name
    rw [tableOf_eq, Table.find?_foldl_put]
    exact Option.or_none
  refine ⟨Table.nodup_names_foldl_put _ List.nodup_nil, fun name => ?_, hfind⟩
  rw [← mem_names_reverse_zip h]
  constructor
  · intro hname
    obtain ⟨v, hv⟩ := Table.exists_find?_of_mem_names hname
    exact Table.mem_names_of_find? ((hfind name).symm.trans hv)
  · intro hname
    obtain ⟨v, hv⟩ := Table.exists_find?_of_mem_names hname
    exact Table.mem_names_of_find? ((hfind name).trans hv)

/-- A round is about to begin: the store before it, and the values for the loop variables. -/
structure Opening where
  before : Store
  values : List Value

namespace Opening

/-- The scope of the round is the next one. -/
def scope (o : Opening) : ScopeId := o.before.scopes.size

/-- The store in which the round begins: its scope has been opened. -/
def start (o : Opening) (loop : Loop) (outer : ScopeId) : Store :=
  o.before.withScope outer (tableOf (loop.vars.map (·.name)) o.values)

end Opening

/-- A round that goes on: the stores when its test, its body and its steps have been evaluated, and the values
for the next round. -/
structure Round extends Opening where
  tested : Store
  ended : Store
  stepped : Store
  next : List Value

/-- The round that follows begins when the steps have been evaluated. -/
def Round.following (r : Round) : Opening := ⟨r.stepped, r.next⟩

section

variable (ev : Evaluator) (loop : Loop) (outer : ScopeId)

/-- The test of a round that goes on is false; then its body and its steps are evaluated, all in the scope of the
round. -/
structure Round.GoesOn (r : Round) : Prop where
  test : ∃ t, ev.eval loop.test r.scope (r.start loop outer) = .ok t r.tested ∧ t.isTruthy = false
  body : ∃ v, ev.evalForms r.scope loop.body r.tested = .ok v r.ended
  steps : InTurn ev r.scope (loop.vars.map LoopVariable.source) r.ended (.ok r.next r.stepped)

/-- The ways in which a round ends the loop: its test is true, and the results are left to be evaluated in its
scope; or the test, the body or a step ends with a signal. -/
inductive Opening.Ends (o : Opening) : EStateM.Result Signal Store Step → Prop
  | finished {t : Value} {s : Store} (htest : ev.eval loop.test o.scope (o.start loop outer) = .ok t s)
      (ht : t.isTruthy = true) : Ends o (ev.sequence o.scope loop.results s)
  | testFails {e : Signal} {s : Store}
      (htest : ev.eval loop.test o.scope (o.start loop outer) = .error e s) : Ends o (.error e s)
  | bodyFails {t : Value} {e : Signal} {s s' : Store}
      (htest : ev.eval loop.test o.scope (o.start loop outer) = .ok t s) (ht : t.isTruthy = false)
      (hbody : ev.evalForms o.scope loop.body s = .error e s') : Ends o (.error e s')
  | stepFails {t v : Value} {e : Signal} {s s' s'' : Store}
      (htest : ev.eval loop.test o.scope (o.start loop outer) = .ok t s) (ht : t.isTruthy = false)
      (hbody : ev.evalForms o.scope loop.body s = .ok v s')
      (hsteps : InTurn ev o.scope (loop.vars.map LoopVariable.source) s' (.error e s'')) : Ends o (.error e s'')

/-- A run of a loop from a round on, under a bound on the number of rounds: those that go on, the last one, and
the outcome. -/
inductive Run : Nat → Opening → List Round → Opening → EStateM.Result Signal Store Step → Prop
  | bounded (o : Opening) : Run 0 o [] o (.error .exhausted (o.start loop outer))
  | ends {bound : Nat} {o : Opening} {outcome : EStateM.Result Signal Store Step}
      (h : o.Ends ev loop outer outcome) : Run (bound + 1) o [] o outcome
  | goesOn {bound : Nat} {r : Round} {more : List Round} {last : Opening}
      {outcome : EStateM.Result Signal Store Step} (h : r.GoesOn ev loop outer)
      (hmore : Run bound r.following more last outcome) :
      Run (bound + 1) r.toOpening (r :: more) last outcome

end

section

variable {ev : Evaluator} {loop : Loop} {outer : ScopeId} {o : Opening}

/-- A round is about to begin in a store in which the scope around the loop is, with a value for each loop
variable. -/
structure Opening.IsReady (o : Opening) (loop : Loop) (outer : ScopeId) : Prop where
  wellFormed : o.before.WellFormed
  outer : outer < o.before.scopes.size
  values : o.values.length = loop.vars.length

theorem Opening.IsReady.holds (h : o.IsReady loop outer) :
    Holds (tableOf (loop.vars.map (·.name)) o.values) (loop.vars.map (·.name)) o.values :=
  tableOf_holds (h.values.trans (List.length_map _).symm)

theorem Opening.getElem?_start (o : Opening) (loop : Loop) (outer : ScopeId) :
    (o.start loop outer).scopes[o.scope]? =
      some ⟨tableOf (loop.vars.map (·.name)) o.values, [], some outer⟩ := Array.getElem?_push_size

theorem Opening.IsReady.change (h : o.IsReady loop outer) : o.before.Change (o.start loop outer) :=
  .scope outer _ h.outer

theorem Opening.IsReady.start_wellFormed (h : o.IsReady loop outer) : (o.start loop outer).WellFormed :=
  h.change.wellFormed h.wellFormed

theorem Opening.IsReady.binds (h : o.IsReady loop outer) :
    Binds (o.start loop outer) o.scope (loop.vars.map (·.name)) :=
  ⟨_, o.getElem?_start loop outer, fun name hname => (h.holds.mem_names name).mpr hname⟩

/-! ### Runs -/

variable (hev : ev.Evolving)
include hev

/-- The test and the body of a round. -/
theorem evolves_of_body {t v : Value} {s s' : Store} (hready : o.IsReady loop outer)
    (htest : ev.eval loop.test o.scope (o.start loop outer) = .ok t s)
    (hbody : ev.evalForms o.scope loop.body s = .ok v s') : (o.start loop outer).Evolves s' := by
  have hscope := hready.binds.lt_size
  have h₁ : (o.start loop outer).Evolves s :=
    Action.after_of_ok htest ▸ (hev.eval loop.test hscope hready.start_wellFormed).1
  have h₂ : s.Evolves s' := Action.after_of_ok hbody ▸
    (hev.evalForms (h₁.exists_of_exists hscope) loop.body (h₁.wellFormed hready.start_wellFormed)).1
  exact h₁.trans h₂

/-- A round that goes on only makes changes that a store may undergo. -/
theorem Round.GoesOn.evolves {r : Round} (h : r.GoesOn ev loop outer) (hready : r.toOpening.IsReady loop outer) :
    (r.start loop outer).Evolves r.ended ∧ r.ended.Evolves r.stepped := by
  obtain ⟨⟨t, htest, -⟩, ⟨v, hbody⟩, hsteps⟩ := h
  have hended := evolves_of_body hev hready htest hbody
  have hscope := hended.exists_of_exists hready.binds.lt_size
  exact ⟨hended, hsteps.evolves hev (hended.wellFormed hready.start_wellFormed) hscope rfl⟩

/-- After a round that goes on, the next one is about to begin. -/
theorem Round.GoesOn.isReady_following {r : Round} (h : r.GoesOn ev loop outer)
    (hready : r.toOpening.IsReady loop outer) : r.following.IsReady loop outer := by
  obtain ⟨hended, hstepped⟩ := h.evolves hev hready
  have hevolves := (Store.Evolves.change hready.change).trans (hended.trans hstepped)
  exact ⟨hevolves.wellFormed hready.wellFormed, hevolves.exists_of_exists hready.outer,
    (h.steps.length_eq rfl).trans (List.length_map _)⟩

/-- What is left of a loop after one of its rounds are the rounds from the following one on. -/
def IsRest (ev : Evaluator) (loop : Loop) (outer : ScopeId) (bound : Nat) (row : List Round)
    (outcome : EStateM.Result Signal Store Step) : Prop :=
  ∀ k r, row[k]? = some r →
    outcome = rounds ev loop outer (bound - (k + 1)) r.following.scope (r.following.start loop outer)

omit hev in
theorem isRest_nil (bound : Nat) (outcome : EStateM.Result Signal Store Step) :
    IsRest ev loop outer bound [] outcome := fun _ _ h => by cases h

/-- The rounds of a loop are a run, by induction on their bound. -/
theorem exists_run (hready : o.IsReady loop outer) (bound : Nat) :
    ∃ row last, Run ev loop outer bound o row last (rounds ev loop outer bound o.scope (o.start loop outer)) ∧
      IsRest ev loop outer bound row (rounds ev loop outer bound o.scope (o.start loop outer)) := by
  induction bound generalizing o with
  | zero => exact ⟨[], o, .bounded o, isRest_nil _ _⟩
  | succ bound ih =>
    rw [rounds]
    cases htest : ev.eval loop.test o.scope (o.start loop outer) with
    | error e s =>
      rw [bind_of_error htest]
      exact ⟨[], o, .ends (.testFails htest), isRest_nil _ _⟩
    | ok t s =>
      rw [bind_of_ok htest]
      cases ht : t.isTruthy with
      | true => exact ⟨[], o, .ends (.finished htest ht), isRest_nil _ _⟩
      | false =>
        rw [if_neg Bool.false_ne_true]
        cases hbody : ev.evalForms o.scope loop.body s with
        | error e s' =>
          rw [bind_of_error hbody]
          exact ⟨[], o, .ends (.bodyFails htest ht hbody), isRest_nil _ _⟩
        | ok v s' =>
          rw [bind_of_ok hbody]
          have hended := evolves_of_body hev hready htest hbody
          have hturn := nextValues_inTurn hev (fun x hx => List.mem_map_of_mem hx)
            (hended.wellFormed hready.start_wellFormed) (hready.binds.evolves hended)
          cases hsteps : nextValues ev o.scope loop.vars s' with
          | error e s'' =>
            rw [bind_of_error hsteps]
            exact ⟨[], o, .ends (.stepFails htest ht hbody (hsteps ▸ hturn)), isRest_nil _ _⟩
          | ok values s'' =>
            -- The round goes on: the rest is the run from the following opening, with one round less.
            let r : Round := { o with tested := s, ended := s', stepped := s'', next := values }
            have hr : r.GoesOn ev loop outer := ⟨⟨t, htest, ht⟩, ⟨v, hbody⟩, hsteps ▸ hturn⟩
            obtain ⟨row, last, hrun, hrest⟩ := ih (hr.isReady_following hev hready)
            rw [bind_of_ok hsteps]
            refine ⟨r :: row, last, .goesOn hr hrun, fun k r' hr' => ?_⟩
            -- The first round of the row leaves the whole rest; the others leave what they leave of it.
            cases k with
            | zero =>
              cases hr'
              rfl
            | succ k =>
              rw [Nat.add_sub_add_right]
              exact hrest k r' hr'

/-- The rounds of a run, in the order in which they begin. -/
def openings (row : List Round) (last : Opening) : List Opening := row.map Round.toOpening ++ [last]

/-- A round begins after another one: in a store that the start of the other one has led to, and with a scope
that was not there before. -/
structure Opening.IsFollowedBy (loop : Loop) (outer : ScopeId) (o o' : Opening) : Prop where
  evolves : (o.start loop outer).Evolves o'.before
  lt : o.scope < o'.scope

/-- All rounds of a run are ready, and each of them is followed by all later ones; by induction on the run. -/
theorem Run.rounds_follow {bound : Nat} {row : List Round} {last : Opening}
    {outcome : EStateM.Result Signal Store Step} (h : Run ev loop outer bound o row last outcome)
    (hready : o.IsReady loop outer) :
    (∀ o' ∈ openings row last, o'.IsReady loop outer ∧ o.before.Evolves o'.before) ∧
      (openings row last).Pairwise (Opening.IsFollowedBy loop outer) := by
  have hlast : ∀ {o : Opening}, o.IsReady loop outer →
      ∀ o' ∈ openings [] o, o'.IsReady loop outer ∧ o.before.Evolves o'.before := by
    intro o hready o' ho'
    obtain rfl := List.mem_singleton.mp ho'
    exact ⟨hready, .refl _⟩
  induction h with
  | bounded o => exact ⟨hlast hready, List.pairwise_singleton _ _⟩
  | ends h => exact ⟨hlast hready, List.pairwise_singleton _ _⟩
  | @goesOn bound r row last outcome h hmore ih =>
    obtain ⟨hall, hpairwise⟩ := ih (h.isReady_following hev hready)
    have hround := (h.evolves hev hready).1.trans (h.evolves hev hready).2
    have hopen := Store.Evolves.change hready.change
    refine ⟨fun o' ho' => ?_, List.pairwise_cons.mpr ⟨fun o' ho' => ?_, hpairwise⟩⟩
    · rcases List.mem_cons.mp ho' with rfl | ho'
      · exact ⟨hready, .refl _⟩
      · exact ⟨(hall o' ho').1, (hopen.trans hround).trans (hall o' ho').2⟩
    · have hevolves := hround.trans (hall o' ho').2
      exact ⟨hevolves, hevolves.exists_of_exists hready.binds.lt_size⟩

omit hev in
/-- The rounds of a run that go on do so. -/
theorem Run.goesOn_of_mem {bound : Nat} {row : List Round} {last : Opening}
    {outcome : EStateM.Result Signal Store Step} (h : Run ev loop outer bound o row last outcome) :
    ∀ r ∈ row, r.GoesOn ev loop outer := by
  induction h with
  | bounded o => exact fun r hr => absurd hr List.not_mem_nil
  | ends h => exact fun r hr => absurd hr List.not_mem_nil
  | goesOn h hmore ih =>
    intro r hr
    rcases List.mem_cons.mp hr with rfl | hr
    · exact h
    · exact ih r hr

end

/-! ### The scopes of a loop -/

/-- A round has a scope of its own: there was none before it and no closure was made in it, and when the round
begins it holds the loop variables and nothing else. Nothing else is changed by opening it. -/
structure Opening.HasOwnScope (o : Opening) (loop : Loop) (outer : ScopeId) : Prop where
  unused : o.before.scopes[o.scope]? = none
  unreferred : o.before.WellFormed
  bindings : ∃ t, o.start loop outer = { o.before with scopes := o.before.scopes.push ⟨t, [], some outer⟩ } ∧
    (o.start loop outer).scopes[o.scope]? = some ⟨t, [], some outer⟩ ∧ Holds t (loop.vars.map (·.name)) o.values

theorem Opening.IsReady.hasOwnScope {o : Opening} {loop : Loop} {outer : ScopeId} (h : o.IsReady loop outer) :
    o.HasOwnScope loop outer where
  unused := Array.getElem?_size
  unreferred := h.wellFormed
  bindings := ⟨_, rfl, o.getElem?_start loop outer, h.holds⟩

/-- The steps of a round are evaluated before the scope of the following round is there. -/
structure Round.StepsFirst (r : Round) (loop : Loop) (outer : ScopeId) : Prop where
  ended : (r.start loop outer).Evolves r.ended
  stepped : r.ended.Evolves r.stepped
  later : r.stepped.scopes[r.following.scope]? = none

/-- Every round of a loop has its own bindings. The first values are found from left to right in the scope around
the loop. Each round runs in a new scope inside that one, which no other round uses and which holds the loop
variables when the round begins; its steps are found from left to right in its scope before the following scope is
opened, a variable without a step keeping the value it has there; the results are evaluated in the last scope.
With the evaluators of the language, the scope of a round changes in the rest of the loop only when code that
holds it binds a name. -/
theorem loop_rounds_have_own_bindings {ev : Evaluator} (hev : ev.Evolving) {s : Store} (hs : s.WellFormed)
    {outer : ScopeId} (houter : outer < s.scopes.size) {operands : List Value} (hshape : HasShape .loop operands) :
    ∃ loop : Loop, loop.IsWritten operands ∧ ∃ inits,
      InTurn ev outer (loop.vars.map fun x => .expression x.init) s inits ∧
      (∀ e s', inits = .error e s' → SpecialForm.loop.run ev operands outer s = .error e s') ∧
      ∀ values s', inits = .ok values s' → ∃ row last,
        Run ev loop outer ev.rounds ⟨s', values⟩ row last (SpecialForm.loop.run ev operands outer s) ∧
        (∀ o ∈ openings row last, o.HasOwnScope loop outer) ∧
        (openings row last).Pairwise (Opening.IsFollowedBy loop outer) ∧
        (∀ r ∈ row, r.StepsFirst loop outer) ∧
        ∀ bound nesting depth, ev = .nested bound nesting depth → ∀ k r, row[k]? = some r →
          let rest := fun ev => rounds ev loop outer (bound - (k + 1)) r.following.scope
          SpecialForm.loop.run ev operands outer s = rest ev (r.following.start loop outer) ∧
            OnlyHoldersBind r.scope bound nesting depth rest (r.following.start loop outer) := by
  obtain ⟨loop, hloop⟩ := hshape.exists_isWritten
  have hrun := hloop.run_eq ev outer
  have hturn : InTurn ev outer (loop.vars.map fun x => .expression x.init) s
      (ev.operands outer (loop.vars.map (·.init)) s) := by
    have hturn := @operands_inTurn ev outer s (loop.vars.map (·.init))
    rwa [List.map_map] at hturn
  refine ⟨loop, hloop, _, hturn, fun e s' hinits => ?_, fun values s' hinits => ?_⟩
  · rw [hrun]
    exact bind_of_error hinits
  -- The inits may have changed the store, so the first opening is ready in the one that they leave.
  have hevolves := hturn.evolves hev hs houter hinits
  have hready : Opening.IsReady ⟨s', values⟩ loop outer :=
    ⟨hevolves.wellFormed hs, hevolves.exists_of_exists houter,
      (hturn.length_eq hinits).trans (List.length_map _)⟩
  obtain ⟨row, last, hrow, hrest⟩ := exists_run hev hready ev.rounds
  have hstart : SpecialForm.loop.run ev operands outer s =
      rounds ev loop outer ev.rounds (Opening.scope ⟨s', values⟩) (Opening.start ⟨s', values⟩ loop outer) := by
    rw [hrun]
    exact bind_of_ok hinits
  obtain ⟨hall, hpairwise⟩ := hrow.rounds_follow hev hready
  have hmem : ∀ r ∈ row, r.toOpening ∈ openings row last :=
    fun r hr => List.mem_append_left _ (List.mem_map_of_mem hr)
  rw [← hstart] at hrow hrest
  refine ⟨row, last, hrow, fun o ho => (hall o ho).1.hasOwnScope, hpairwise, fun r hr => ?_,
    fun bound nesting depth hnested k r hr => ?_⟩
  · obtain ⟨hended, hstepped⟩ := (hrow.goesOn_of_mem r hr).evolves hev (hall _ (hmem r hr)).1
    exact ⟨hended, hstepped, Array.getElem?_size⟩
  · have hr' := List.mem_of_getElem? hr
    have hround := hrow.goesOn_of_mem r hr'
    have hfollowing := hround.isReady_following hev (hall _ (hmem r hr')).1
    obtain ⟨hended, hstepped⟩ := hround.evolves hev (hall _ (hmem r hr')).1
    have hopened := (hended.trans hstepped).trans (.change hfollowing.change)
    refine ⟨?_, rounds_only_holders_bind loop _ hfollowing.start_wellFormed
      (hopened.exists_of_exists (hall _ (hmem r hr')).1.binds.lt_size)
      ((Store.Evolves.change hfollowing.change).exists_of_exists hfollowing.outer) hfollowing.binds.lt_size⟩
    -- The bound on rounds is the same at every depth.
    have hbound : ev.rounds = bound := by
      rw [hnested]
      cases depth <;> rfl
    exact hbound ▸ hrest k r hr

/-- A loop over one variable with a step and one without. -/
theorem loop_rounds_have_own_bindings_counting :
    let ev : Evaluator := .nested 9 9 9
    let s : Store := Session.emptyStore
    let operands : List Value :=
      [.list 2 (.list 3 (.sym "i") [.int 0, .list 4 (.sym "+") [.sym "i", .sym "j"] none] none)
          [.list 5 (.sym "j") [.int 1] none] none,
        .list 6 (.list 7 (.sym "=") [.sym "i", .int 2] none) [.sym "i"] none]
    ev.Evolving ∧ s.WellFormed ∧ rootScope < s.scopes.size ∧ HasShape .loop operands ∧
      ∃ loop : Loop, loop.IsWritten operands ∧ ∃ inits,
        InTurn ev rootScope (loop.vars.map fun x => .expression x.init) s inits ∧
        ∀ values s', inits = .ok values s' → ∃ row last,
          Run ev loop rootScope 9 ⟨s', values⟩ row last (SpecialForm.loop.run ev operands rootScope s) := by
  intro ev s operands
  have hev : ev.Evolving := Evaluator.nested_evolving 9 9 9
  have hs : s.WellFormed := Session.initialStore_wellFormed _ _ _ _
  have hshape : HasShape .loop operands := by
    refine .loop ⟨rfl, fun v hv => ?_⟩ ⟨_, _, _, rfl⟩
    rcases List.mem_cons.mp hv with rfl | hv
    · exact ⟨_, _, _, .inr ⟨_, rfl⟩⟩
    · exact ⟨_, _, _, .inl (List.mem_singleton.mp hv)⟩
  obtain ⟨loop, hloop, inits, hturn, -, hrun⟩ := loop_rounds_have_own_bindings hev hs hs.root_lt hshape
  refine ⟨hev, hs, hs.root_lt, hshape, loop, hloop, inits, hturn, fun values s' hinits => ?_⟩
  obtain ⟨row, last, hrow, -⟩ := hrun values s' hinits
  exact ⟨row, last, hrow⟩

end Forms

end Lisplet
