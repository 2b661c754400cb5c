import Lisplet.Proofs.Copies
import Lisplet.Proofs.DepthOrder
import Lisplet.Proofs.SingleSteps

/-!
# Starting with the prelude

The prelude is a row of definitions in the root scope. Each of them adds a closure under a name that nothing
is bound to from the start, so after all of them whatever was bound still means what it meant, and the
transformers that they define are there.
-/

namespace Lisplet

/-! ### Definitions as data -/

namespace Datum

/-- A row of symbols, perhaps with a symbol behind a dot, or one symbol alone. -/
def isFormals : Datum → Bool
  | .nil | .sym _ => true
  | .pair (.sym _) d => d.isFormals
  | _ => false

/-- A proper list. -/
def isRow : Datum → Bool
  | .nil => true
  | .pair _ d => d.isRow
  | _ => false

/-- The name that a datum defines a procedure or a transformer under. -/
def defined? : Datum → Option Text
  | .pair (.sym form) (.pair (.pair (.sym name) formals) (.pair _ more)) =>
    if (Text.same form "define" || Text.same form "define-macro") && formals.isFormals && more.isRow then
      some name
    else none
  | _ => none

/-- No number but integers, and nothing that cannot be read. -/
def isExact : Datum → Bool
  | .float _ | .nan _ | .unreadable _ => false
  | .pair head tail => head.isExact && tail.isExact
  | _ => true

theorem isExact_iff (d : Datum) : d.isExact = true ↔ d.IsExact := by
  induction d with
  | pair head tail ih ih' => rw [isExact, Bool.and_eq_true, ih, ih']; rfl
  | _ => simp [isExact, IsExact]

/-- Whether two data of symbols and lists are the same. -/
def same : Datum → Datum → Bool
  | .sym a, .sym b => Text.same a b
  | .nil, .nil => true
  | .pair a b, .pair c d => same a c && same b d
  | _, _ => false

theorem eq_of_same {d e : Datum} (h : same d e = true) : d = e := by
  induction d generalizing e with
  | sym a =>
    cases e with
    | sym b => rw [Text.same_iff.mp h]
    | _ => exact nomatch h
  | nil =>
    cases e with
    | nil => rfl
    | _ => exact nomatch h
  | pair a b ih ih' =>
    cases e with
    | pair c d =>
      obtain ⟨hhead, htail⟩ := Bool.and_eq_true_iff.mp h
      rw [ih hhead, ih' htail]
    | _ => exact nomatch h
  | _ => cases e <;> exact nomatch h

end Datum

/-- The definition of the conditional with one branch. -/
def whenDatum : Datum :=
  .ofList [.sym "define-macro", .ofItems [.sym "when", .sym "test"] (.sym "body"),
    .prefixed "quasiquote" (.ofList [.sym "if", .prefixed "unquote" (.sym "test"),
      .ofList [.sym "begin", .prefixed "unquote-splicing" (.sym "body")]])]

/-! ### Values of such data -/

namespace Store

variable {s : Store}

theorem datum_eq_sym {v : Value} {name : Text} (h : s.datum v = .sym name) : v = .sym name := by
  cases v with
  | atom a =>
    cases a with
    | sym name' => rw [Datum.sym.inj h]
    | _ => exact nomatch h
  | nil => exact nomatch h
  | list id head rest last => exact nomatch (s.datum_list id head rest last).symm.trans h

/-- A value whose datum is a pair is a list. -/
theorem datum_eq_pair {v : Value} {d e : Datum} (h : s.datum v = .pair d e) :
    ∃ id head rest last, v = .list id head rest last ∧ s.datum head = d ∧
      s.rowDatum rest (s.endingDatum last) = e := by
  cases v with
  | atom a => exact absurd h (s.atomDatum_ne_pair a d e)
  | nil => exact nomatch h
  | list id head rest last =>
    rw [datum_list, Datum.pair.injEq] at h
    exact ⟨id, head, rest, last, rfl, h.1, h.2⟩

theorem rowDatum_eq_pair {vs : List Value} {last : Option Atom} {d e : Datum}
    (h : s.rowDatum vs (s.endingDatum last) = .pair d e) :
    ∃ v more, vs = v :: more ∧ s.datum v = d ∧ s.rowDatum more (s.endingDatum last) = e := by
  cases vs with
  | nil => exact absurd h (s.endingDatum_ne_pair last d e)
  | cons v more =>
    rw [rowDatum, Datum.pair.injEq] at h
    exact ⟨v, more, rfl, h.1, h.2⟩

theorem rowDatum_eq_nil {vs : List Value} {last : Option Atom}
    (h : s.rowDatum vs (s.endingDatum last) = .nil) : vs = [] ∧ last = none := by
  cases vs with
  | nil =>
    cases last with
    | none => exact ⟨rfl, rfl⟩
    | some a => exact absurd h (s.atomDatum_ne_nil a)
  | cons v more => exact nomatch h

theorem rowDatum_eq_sym {vs : List Value} {last : Option Atom} {name : Text}
    (h : s.rowDatum vs (s.endingDatum last) = .sym name) : vs = [] ∧ last = some (.sym name) := by
  cases vs with
  | nil =>
    cases last with
    | none => exact nomatch h
    | some a =>
      have ha : Value.atom a = .sym name := datum_eq_sym h
      exact ⟨rfl, congrArg some (Value.atom.inj ha)⟩
  | cons v more => exact nomatch h

/-- A row of the data of a list has no ending. -/
theorem rowDatum_eq_ofList {vs : List Value} {last : Option Atom} {ds : List Datum}
    (h : s.rowDatum vs (s.endingDatum last) = .ofList ds) : vs.map s.datum = ds ∧ last = none := by
  induction ds generalizing vs with
  | nil =>
    obtain ⟨rfl, rfl⟩ := rowDatum_eq_nil h
    exact ⟨rfl, rfl⟩
  | cons d ds ih =>
    obtain ⟨v, more, rfl, rfl, hmore⟩ := rowDatum_eq_pair h
    obtain ⟨rfl, rfl⟩ := ih hmore
    exact ⟨rfl, rfl⟩

/-- The datum of a call. -/
theorem datum_eq_call {v : Value} {name : Text} {ds : List Datum}
    (h : s.datum v = .ofList (.sym name :: ds)) :
    ∃ id operands, v = .call id name operands ∧ operands.map s.datum = ds := by
  obtain ⟨id, head, rest, last, rfl, hhead, hrest⟩ := datum_eq_pair h
  obtain rfl := datum_eq_sym hhead
  obtain ⟨hoperands, rfl⟩ := rowDatum_eq_ofList hrest
  exact ⟨id, rest, rfl, hoperands⟩

/-- The datum of a call of one operand. -/
theorem datum_eq_prefixed {v : Value} {name : Text} {d : Datum} (h : s.datum v = .prefixed name d) :
    ∃ id operand, v = .call id name [operand] ∧ s.datum operand = d := by
  have hcall : s.datum v = .ofList [.sym name, d] := h
  obtain ⟨id, operands, rfl, hoperands⟩ := datum_eq_call hcall
  obtain ⟨operand, hoperand, rfl⟩ := List.map_eq_singleton_iff.mp hoperands
  exact ⟨id, operand, hoperand ▸ rfl, rfl⟩

/-- A proper row has no ending. -/
theorem last_eq_none_of_isRow {vs : List Value} {last : Option Atom}
    (h : (s.rowDatum vs (s.endingDatum last)).isRow = true) : last = none := by
  induction vs with
  | nil =>
    cases last with
    | none => rfl
    | some a => cases a <;> exact nomatch h
  | cons v vs ih => exact ih h

/-- The cells of formals are symbols. -/
theorem cells_of_isFormals {vs : List Value} {last : Option Atom}
    (h : (s.rowDatum vs (s.endingDatum last)).isFormals = true) :
    ∀ v ∈ vs ++ (last.map Value.atom).toList, ∃ name, v = .sym name := by
  induction vs with
  | nil =>
    cases last with
    | none => exact fun _ hv => nomatch hv
    | some a =>
      cases a with
      | sym name =>
        intro v hv
        exact ⟨name, List.mem_singleton.mp hv⟩
      | _ => exact nomatch h
  | cons v vs ih =>
    rw [rowDatum] at h
    cases hv : s.datum v with
    | sym name =>
      rw [hv] at h
      intro w hw
      rcases List.mem_cons.mp hw with rfl | hw
      · exact ⟨name, datum_eq_sym hv⟩
      · exact ih h w hw
    | _ =>
      rw [hv] at h
      exact nomatch h

end Store

theorem Params.symbolNames_ok (form : Text) {vs : List Value} (h : ∀ v ∈ vs, ∃ name, v = .sym name)
    (position : Nat) : ∃ names, symbolNames form position vs = .ok names := by
  induction vs generalizing position with
  | nil => exact ⟨[], rfl⟩
  | cons v vs ih =>
    obtain ⟨name, rfl⟩ := h v List.mem_cons_self
    obtain ⟨names, hnames⟩ := ih (fun v hv => h v (List.mem_cons_of_mem _ hv)) (position + 1)
    exact ⟨name :: names, by rw [symbolNames, hnames]; rfl⟩

/-- Formals are read as parameters. -/
theorem Params.parse_ok (form : Text) (id : ObjectId) {vs : List Value} {last : Option Atom}
    (h : ∀ v ∈ vs ++ (last.map Value.atom).toList, ∃ name, v = .sym name) :
    ∃ params, parse form (.assemble id vs last) = .ok params := by
  cases vs with
  | nil =>
    cases last with
    | none => exact ⟨⟨[], none⟩, rfl⟩
    | some a =>
      obtain ⟨name, ha⟩ := h (.atom a) List.mem_cons_self
      obtain rfl := Value.atom.inj ha
      exact ⟨⟨[], some name⟩, rfl⟩
  | cons head rest =>
    obtain ⟨names, hnames⟩ := symbolNames_ok form h 1
    have hcells : symbolNames form 1 (Value.list id head rest last).cells = .ok names := hnames
    refine ⟨if (Value.list id head rest last).isProper then ⟨names, none⟩
      else ⟨names.dropLast, names.getLast?⟩, ?_⟩
    show (symbolNames form 1 (Value.list id head rest last).cells).map _ = _
    rw [hcells]
    rfl

/-! ### One definition -/

/-- The root scope sees an environment in which everything is as usual. -/
structure Store.InRoot (s : Store) (env : Env) : Prop where
  sees : s.scopes.Sees rootScope env
  usual : env.IsUsual

namespace Store.InRoot

variable {s : Store} {env : Env} {name : Text}

theorem adds (h : s.InRoot env) {s' : Store} (hadds : s.Adds s') : s'.InRoot env := by
  obtain ⟨more, next, rfl⟩ := hadds
  exact ⟨h.sees, h.usual⟩

theorem withProcedure (h : s.InRoot env) (hnew : initialBindings.find? name = none) (c : Closure) :
    (s.withProcedure rootScope c name).InRoot (env.define name (.atom (.closure s.closures.size))) :=
  ⟨h.sees.define_root name _, h.usual.define hnew _⟩

theorem withTransformer (h : s.InRoot env) (hnew : initialBindings.find? name = none) (c : Closure) :
    (s.withTransformer rootScope c name).InRoot (env.defineTransformer name s.closures.size) :=
  ⟨h.sees.defineTransformer_root name _, h.usual.defineTransformer hnew _⟩

end Store.InRoot

/-- What a definition leaves: everything as usual, all closures, and the meaning of all other names. -/
structure Store.Defines (s : Store) (env : Env) (name : Text) (s' : Store) (env' : Env) : Prop where
  inRoot : s'.InRoot env'
  closures : ∀ (c : ClosureId) (proc : Closure), s.closures[c]? = some proc → s'.closures[c]? = some proc
  others : ∀ {names : List Text}, name ∈ names → env.AgreesOutside names env'

open Evaluator in
/-- The value of a definition is evaluated to a definition of its name. -/
theorem exists_defines {d : Datum} {name : Text} (hd : d.defined? = some name)
    (hnew : initialBindings.find? name = none) {s : Store} {env : Env} (h : s.InRoot env) {v : Value}
    (hv : s.datum v = d) (nesting depth : Nat) :
    ∃ s' env', Gives nesting (depth + 2) v rootScope s .void s' ∧ s.Defines env name s' env' := by
  unfold Datum.defined? at hd
  split at hd
  next form name' formals first more =>
    split at hd
    next hcond =>
      obtain rfl := Option.some.inj hd
      simp only [Bool.and_eq_true, Bool.or_eq_true, Text.same_iff] at hcond
      obtain ⟨⟨hform, hformals⟩, hmore⟩ := hcond
      -- The value has the shape of the datum: it is taken apart along it.
      obtain ⟨id, head, rest, last, rfl, hhead, hrest⟩ := Store.datum_eq_pair hv
      obtain rfl := Store.datum_eq_sym hhead
      obtain ⟨signature, body, rfl, hsignature, hbody⟩ := Store.rowDatum_eq_pair hrest
      obtain ⟨expr, exprs, rfl, hexpr, hexprs⟩ := Store.rowDatum_eq_pair hbody
      obtain rfl := Store.last_eq_none_of_isRow (hexprs ▸ hmore)
      obtain ⟨id', name'', vs, last, rfl, hname, hvs⟩ := Store.datum_eq_pair hsignature
      obtain rfl := Store.datum_eq_sym hname
      have hcells := Store.cells_of_isFormals (hvs ▸ hformals)
      rcases hform with rfl | rfl
      · obtain ⟨params, hparams⟩ := Params.parse_ok "define" id' hcells
        exact ⟨_, _, (Steps.defineProcedure h.sees h.usual hparams (List.cons_ne_nil expr exprs)).gives,
          h.withProcedure hnew _, fun _ _ hc => getElem?_push_of_some hc _,
          fun hmem => env.agreesOutside_define hmem _⟩
      · obtain ⟨params, hparams⟩ := Params.parse_ok "define-macro" id' hcells
        exact ⟨_, _, (Steps.defineTransformer h.sees h.usual hparams (List.cons_ne_nil expr exprs)).gives,
          h.withTransformer hnew _, fun _ _ hc => getElem?_push_of_some hc _,
          fun hmem => env.agreesOutside_defineTransformer hmem _⟩
    next => exact nomatch hd
  next => exact nomatch hd

/-! ### The conditional with one branch -/

/-- What `when` is expanded by: a conditional around a sequence. -/
def whenTemplate (id id₁ id₂ id₃ : ObjectId) : Value :=
  .call id "if" [.call id₁ "unquote" [.sym "test"],
    .call id₂ "begin" [.call id₃ "unquote-splicing" [.sym "body"]]]

/-- The closure of the transformer `when`. -/
def Closure.IsWhen (proc : Closure) : Prop :=
  ∃ id id₁ id₂ id₃ id₄, proc = ⟨some "when", ⟨["test"], some "body"⟩,
    [.call id "quasiquote" [whenTemplate id₁ id₂ id₃ id₄]], rootScope⟩

/-- The transformer `when` is there. -/
def Store.HasWhen (s : Store) (env : Env) : Prop :=
  ∃ c proc, env.transformer "when" = some c ∧ s.closures[c]? = some proc ∧ proc.IsWhen

theorem Store.Defines.hasWhen {s s' : Store} {env env' : Env} {name : Text}
    (h : s.Defines env name s' env') (hname : name ≠ "when") (hwhen : s.HasWhen env) : s'.HasWhen env' := by
  obtain ⟨c, proc, htransformer, hc, hproc⟩ := hwhen
  have hother : ("when" : Text) ∉ [name] := fun hmem => hname (List.mem_singleton.mp hmem).symm
  have hagrees := h.others List.mem_cons_self "when" hother
  exact ⟨c, proc, hagrees.2.trans htransformer, h.closures c proc hc, hproc⟩

open Evaluator in
/-- The value of its definition defines it. -/
theorem exists_defines_when {s : Store} {env : Env} (h : s.InRoot env) {v : Value}
    (hv : s.datum v = whenDatum) (nesting depth : Nat) :
    ∃ s' env', Gives nesting (depth + 2) v rootScope s .void s' ∧ s.Defines env "when" s' env' ∧
      s'.HasWhen env' := by
  have hnew : initialBindings.find? "when" = none := by decide +kernel
  obtain ⟨id, operands, rfl, hoperands⟩ := Store.datum_eq_call hv
  obtain ⟨signature, operands, rfl, hsignature, hbody⟩ := List.map_eq_cons_iff.mp hoperands
  obtain ⟨id', name, formals, last, rfl, hname, hformals⟩ := Store.datum_eq_pair hsignature
  obtain rfl := Store.datum_eq_sym hname
  obtain ⟨test, formals, rfl, htest, hrest⟩ := Store.rowDatum_eq_pair hformals
  obtain rfl := Store.datum_eq_sym htest
  obtain ⟨rfl, rfl⟩ := Store.rowDatum_eq_sym hrest
  obtain ⟨quoted, rfl, hquoted⟩ := List.map_eq_singleton_iff.mp hbody
  obtain ⟨id₀, template, rfl, htemplate⟩ := Store.datum_eq_prefixed hquoted
  obtain ⟨id₁, branches, rfl, hbranches⟩ := Store.datum_eq_call htemplate
  obtain ⟨hole, branches, rfl, hhole, hbranch⟩ := List.map_eq_cons_iff.mp hbranches
  obtain ⟨id₂, x, rfl, hx⟩ := Store.datum_eq_prefixed hhole
  obtain rfl := Store.datum_eq_sym hx
  obtain ⟨sequence, rfl, hsequence⟩ := List.map_eq_singleton_iff.mp hbranch
  obtain ⟨id₃, exprs, rfl, hexprs⟩ := Store.datum_eq_call hsequence
  obtain ⟨splice, rfl, hsplice⟩ := List.map_eq_singleton_iff.mp hexprs
  obtain ⟨id₄, y, rfl, hy⟩ := Store.datum_eq_prefixed hsplice
  obtain rfl := Store.datum_eq_sym hy
  have hparams : Params.parse "define-macro" (.assemble id' [.sym "test"] (some (.sym "body"))) =
      .ok ⟨["test"], some "body"⟩ := rfl
  refine ⟨_, _, (Steps.defineTransformer h.sees h.usual hparams (List.cons_ne_nil _ [])).gives,
    ⟨h.withTransformer hnew _, fun _ _ hc => getElem?_push_of_some hc _,
      fun hmem => env.agreesOutside_defineTransformer hmem _⟩,
    s.closures.size, _, env.transformer_defineTransformer_self _ _, Array.getElem?_push_size, id₀, id₁, id₂,
    id₃, id₄, rfl⟩

namespace Template

/-- Filling it gives a conditional around a sequence, made of two new lists. -/
theorem fill_whenTemplate {ev : Evaluator} {scope : ScopeId} {s : Store} {test list : Value}
    (htest : ev.eval (.sym "test") scope s = .ok test s)
    (hlist : ev.eval (.sym "body") scope s = .ok list s) (hproper : list.isProper = true)
    (id id₁ id₂ id₃ : ObjectId) :
    fill ev scope (whenTemplate id id₁ id₂ id₃) s =
      .ok (.call (s.nextObject + 1) "if" [test, .call s.nextObject "begin" list.items])
        s.withObject.withObject := by
  -- From the innermost element out; only the two lists around the parts are new.
  have hsplice : fillElement ev scope (.call id₃ "unquote-splicing" [.sym "body"]) s =
      .ok list.items s := by
    refine (bind_of_ok hlist).trans ?_
    rw [if_pos hproper]
    rfl
  have hitems : fillRest ev scope true [.call id₃ "unquote-splicing" [.sym "body"]] s =
      .ok (list.items, none) s := by
    refine (bind_of_ok hsplice).trans ?_
    exact congrArg (fun items => EStateM.Result.ok (items, none) s) (List.append_nil list.items)
  have hbegin : fillElement ev scope (.call id₂ "begin" [.call id₃ "unquote-splicing" [.sym "body"]]) s =
      .ok [.call s.nextObject "begin" list.items] s.withObject := (bind_of_ok hitems).trans rfl
  have hlast : fillRest ev scope true [.call id₂ "begin" [.call id₃ "unquote-splicing" [.sym "body"]]] s =
      .ok ([.call s.nextObject "begin" list.items], none) s.withObject := (bind_of_ok hbegin).trans rfl
  have hhole : fillElement ev scope (.call id₁ "unquote" [.sym "test"]) s = .ok [test] s :=
    (bind_of_ok htest).trans rfl
  have hrest : fillRest ev scope true [.call id₁ "unquote" [.sym "test"],
      .call id₂ "begin" [.call id₃ "unquote-splicing" [.sym "body"]]] s =
        .ok ([test, .call s.nextObject "begin" list.items], none) s.withObject :=
    (bind_of_ok hhole).trans ((bind_of_ok hlast).trans rfl)
  have hwhole : fillElement ev scope (whenTemplate id id₁ id₂ id₃) s = .ok
      [.call (s.nextObject + 1) "if" [test, .call s.nextObject "begin" list.items]]
      s.withObject.withObject := (bind_of_ok hrest).trans rfl
  exact (bind_of_ok hwhole).trans rfl

end Template

/-- The parameters of `when`, bound in a call. -/
def whenBindings (id : ObjectId) (test : Value) (exprs : List Value) : Table Value :=
  [("test", test), ("body", .ofList id exprs)]

theorem bindings_when (id : ObjectId) (test : Value) (exprs : List Value) :
    (⟨["test"], some "body"⟩ : Params).bindings id (test :: exprs) = whenBindings id test exprs := by
  have hne : ("test" : Text) ≠ "body" := by decide
  show Table.put "body" (.ofList id exprs) [("test", test)] = whenBindings id test exprs
  rw [Table.put, Text.same_eq_false hne, if_neg Bool.false_ne_true]
  rfl

theorem bind_whenBindings_isUsual {env : Env} (h : env.IsUsual) (id : ObjectId) (test : Value)
    (exprs : List Value) : (env.bind (whenBindings id test exprs)).IsUsual := by
  have htest : initialBindings.find? "test" = none := by decide +kernel
  have hbody : initialBindings.find? "body" = none := by decide +kernel
  refine h.bind fun name hname => ?_
  rcases List.mem_cons.mp hname with rfl | hname
  · exact htest
  · exact List.mem_singleton.mp hname ▸ hbody

namespace Evaluator

/-- The template of `when` comes to a conditional around a sequence. -/
theorem Gives.whenTemplate {s : Store} {scope : ScopeId} {env : Env} {id : ObjectId} {test : Value}
    {exprs : List Value} (hsees : s.scopes.Sees scope (env.bind (whenBindings id test exprs)))
    (husual : env.IsUsual) (id₀ id₁ id₂ id₃ id₄ : ObjectId) (depth : Nat) :
    Gives nestingLimit (depth + 2) (.call id₀ "quasiquote" [whenTemplate id₁ id₂ id₃ id₄]) scope s
      (.call (s.nextObject + 1) "if" [test, .call s.nextObject "begin" exprs])
      s.withObject.withObject := by
  have hne : ("test" : Text) ≠ "body" := by decide
  have htest : Gives nestingLimit (depth + 1) (.sym "test") scope s test s :=
    .name hsees (Env.value_bind_of_find? (Table.find?_cons_self _ _ _) env)
  have hbody : Gives nestingLimit (depth + 1) (.sym "body") scope s (.ofList id exprs) s :=
    .name hsees (Env.value_bind_of_find?
      ((Table.find?_cons_of_ne hne _ _).trans (Table.find?_cons_self _ _ _)) env)
  have hproper : (Value.ofList id exprs).isProper = true := by
    cases exprs <;> rfl
  refine Steps.gives (.form hsees (bind_whenBindings_isUsual husual id test exprs) .quasiquote rfl
    fun rounds hrounds => ?_)
  have hfill := Template.fill_whenTemplate (htest rounds hrounds) (hbody rounds hrounds) hproper id₁ id₂ id₃
    id₄
  rw [Value.ofList, Value.items_assemble] at hfill
  exact (bind_of_ok hfill).trans rfl

/-- A call of `when` leaves a conditional around a sequence over, in the scope of the call. -/
theorem Steps.when {s : Store} {scope : ScopeId} {env root : Env} (hsees : s.scopes.Sees scope env)
    (hroot : s.InRoot root) {c : ClosureId} {proc : Closure} (hproc : proc.IsWhen)
    (htransformer : env.transformer "when" = some c) (hc : s.closures[c]? = some proc) (id : ObjectId)
    (test : Value) (exprs : List Value) (depth : Nat) :
    ∃ id₁ id₂, Steps nestingLimit (depth + 2) (.call id "when" (test :: exprs)) scope s
      (.tailCall (.call id₁ "if" [test, .call id₂ "begin" exprs]) scope)
      (s.withObject.withScope rootScope (whenBindings s.nextObject test exprs)).withObject.withObject := by
  obtain ⟨id₀, id₁, id₂, id₃, id₄, rfl⟩ := hproc
  have hinside := hroot.sees.push (whenBindings s.nextObject test exprs)
  have hgives := Gives.whenTemplate (s := s.withObject.withScope rootScope _) hinside hroot.usual id₀ id₁ id₂
    id₃ id₄ depth
  have harity : (Params.arity ⟨["test"], some "body"⟩).accepts (test :: exprs).length = true := by
    rw [Params.arity, Arity.accepts_atLeast, List.length_cons]
    show (1 : Int) ≤ ((exprs.length + 1 : Nat) : Int)
    omega
  exact ⟨_, _, .expand hsees htransformer hc harity rfl (bindings_when s.nextObject test exprs ▸ hgives)⟩

end Evaluator

/-! ### The prelude -/

/-- The names that the prelude defines. -/
def preludeNames : List Text :=
  ["caar", "cadr", "cdar", "cddr", "caddr", "map", "for-each", "filter", "fold-left", "fold-right", "assq",
    "assoc", "member", "when", "unless"]

theorem preludeNames_isNew : ∀ name ∈ preludeNames, initialBindings.find? name = none := by
  decide +kernel

/-- A definition of one of the names of the prelude, and no other one of `when` than the right one. -/
def Datum.isPreludeForm (d : Datum) : Bool :=
  d.isExact && match d.defined? with
    | some name => preludeNames.contains name && (!Text.same name "when" || Datum.same d whenDatum)
    | none => false

/-- One form of the prelude is evaluated to a definition, and `when` stays defined or becomes so. -/
theorem Datum.isPreludeForm.eval {d : Datum} (hd : d.isPreludeForm = true) {s : Store} {env : Env}
    (h : s.InRoot env) (nesting depth : Nat) :
    ∃ v s₁ s' env', Action.instantiate d s = .ok v s₁ ∧
      Evaluator.Gives nesting (depth + 2) v rootScope s₁ .void s' ∧ s'.InRoot env' ∧
      env.AgreesOutside preludeNames env' ∧ (d = whenDatum ∨ s.HasWhen env → s'.HasWhen env') := by
  obtain ⟨hexact, hform⟩ := Bool.and_eq_true_iff.mp hd
  obtain ⟨v, s₁, hv, hadds, hdatum⟩ := Action.instantiate_spec ((isExact_iff d).mp hexact) s
  have hroot := h.adds hadds
  have hkept : s.HasWhen env → s₁.HasWhen env := by
    obtain ⟨more, next, rfl⟩ := hadds
    exact id
  by_cases hwhen : d = whenDatum
  · obtain ⟨s', env', hgives, hdefines, hhas⟩ :=
      exists_defines_when hroot ((hdatum s₁ (.refl s₁)).trans hwhen) nesting depth
    have hmem : ("when" : Text) ∈ preludeNames := by decide
    exact ⟨v, s₁, s', env', hv, hgives, hdefines.inRoot, hdefines.others hmem, fun _ => hhas⟩
  · split at hform
    next name hdefined =>
      obtain ⟨hmem, hname⟩ := Bool.and_eq_true_iff.mp hform
      have hmem := List.contains_iff_mem.mp hmem
      obtain ⟨s', env', hgives, hdefines⟩ :=
        exists_defines hdefined (preludeNames_isNew name hmem) hroot (hdatum s₁ (.refl s₁)) nesting depth
      -- A form of that name that is not the known definition is no form of the prelude.
      have hne : name ≠ "when" := by
        rintro rfl
        rw [Text.same_self, Bool.not_true, Bool.false_or] at hname
        exact hwhen (eq_of_same hname)
      exact ⟨v, s₁, s', env', hv, hgives, hdefines.inRoot, hdefines.others hmem,
        fun hhas => hdefines.hasWhen hne (hkept (hhas.resolve_left hwhen))⟩
    next => cases hform

/-- A row of forms of the prelude, one of them the definition of `when` if it is not there yet. -/
theorem evalData_preludeForms {ds : List Datum} (hds : ∀ d ∈ ds, d.isPreludeForm = true) (hne : ds ≠ [])
    {s : Store} {env : Env} (h : s.InRoot env) (hwhen : whenDatum ∈ ds ∨ s.HasWhen env)
    (nesting depth : Nat) :
    ∃ s' env', (∀ rounds > 0,
        (Evaluator.nested rounds nesting (depth + 2)).evalData rootScope ds s = .ok .void s') ∧
      s'.InRoot env' ∧ env.AgreesOutside preludeNames env' ∧ s'.HasWhen env' := by
  induction ds generalizing s env with
  | nil => exact absurd rfl hne
  | cons d ds ih =>
    obtain ⟨v, s₁, s₂, env₂, hv, heval, hroot, hagrees, hhas⟩ :=
      Datum.isPreludeForm.eval (hds d List.mem_cons_self) h nesting depth
    have hrest : whenDatum ∈ ds ∨ s₂.HasWhen env₂ := by
      rcases hwhen with hmem | hwhen
      · rcases List.mem_cons.mp hmem with rfl | hmem
        · exact Or.inr (hhas (Or.inl rfl))
        · exact Or.inl hmem
      · exact Or.inr (hhas (Or.inr hwhen))
    cases ds with
    | nil =>
      exact ⟨s₂, env₂, fun rounds hrounds => (bind_of_ok hv).trans (heval rounds hrounds), hroot, hagrees,
        hrest.resolve_left List.not_mem_nil⟩
    | cons next ds =>
      obtain ⟨s', env', hmore, hroot', hagrees', hwhen'⟩ :=
        ih (fun d hd => hds d (List.mem_cons_of_mem _ hd)) (List.cons_ne_nil next ds) hroot hrest
      exact ⟨s', env', fun rounds hrounds => (bind_of_ok hv).trans
        ((bind_of_ok (heval rounds hrounds)).trans (hmore rounds hrounds)), hroot',
        hagrees.trans hagrees', hwhen'⟩

theorem Text.ofString_ofList (l : List Char) : Text.ofString (String.ofList l) = l.map CodePoint.ofChar := by
  rw [Text.ofString, String.toList_ofList]

set_option maxRecDepth 100000 in
theorem readAll_preludeSource : ((readAll 50 preludeSource).failure.isNone &&
    (readAll 50 preludeSource).forms.all Datum.isPreludeForm &&
    (readAll 50 preludeSource).forms.any (Datum.same whenDatum)) = true := by
  rw [preludeSource, Text.ofString_ofList]
  decide +kernel

/-- A session that starts with the prelude starts: the meaning of all names but those of the prelude is kept,
and `when` is there. -/
theorem Session.start_prelude {s : Store} {env : Env} (h : s.InRoot env) {nesting : Nat}
    (hnesting : 50 ≤ nesting) (depth : Nat) :
    ∃ s' env', (∀ rounds > 0, start (.nested rounds nesting (depth + 2)) (.standard none) s = .ok () s') ∧
      s'.InRoot env' ∧ env.AgreesOutside preludeNames env' ∧ s'.HasWhen env' := by
  have hchecks := readAll_preludeSource
  simp only [Bool.and_eq_true, Option.isNone_iff_eq_none, List.all_eq_true, List.any_eq_true] at hchecks
  obtain ⟨⟨hfailure, hforms⟩, d, hd, hwhen⟩ := hchecks
  obtain rfl := Datum.eq_of_same hwhen
  have hread : readAll nesting preludeSource = readAll 50 preludeSource := by
    rcases readAll_mono hnesting preludeSource with heq | ⟨hdeep, _⟩
    · exact heq
    · cases hfailure.symm.trans hdeep
  obtain ⟨s', env', heval, hkept⟩ :=
    evalData_preludeForms hforms (List.ne_nil_of_mem hd) h (Or.inl hd) nesting depth
  refine ⟨s', env', fun rounds hrounds => ?_, hkept⟩
  have hlimited : Action.limited ((Evaluator.nested rounds nesting (depth + 2)).evalData rootScope
      (readAll 50 preludeSource).forms) s = .ok .void s' := by
    rw [Action.limited, heval rounds hrounds]
  have hevaluate : evaluate (.nested rounds nesting (depth + 2)) preludeSource s = .ok .void s' := by
    have hbound : (Evaluator.nested rounds nesting (depth + 2)).nesting = nesting := rfl
    rw [evaluate, hbound, hread, bind_of_ok hlimited, hfailure]
    rfl
  exact (bind_of_ok hevaluate).trans rfl

end Lisplet
