import Lisplet.Proofs.BuiltCode
import Lisplet.Proofs.PreludeStart

/-!
# The code of the prelude

The definitions of the prelude as data, and a session after they have been evaluated: each name of a procedure
means a closure of that code in the root, the names that the code uses mean what they should, and there are no
transformers but the two that the prelude defines.
-/

namespace Lisplet

namespace Datum

/-- The value of code, made with identities from one on. -/
abbrev code (d : Datum) (start : ObjectId) : Value := (d.build start).1

/-- The values of a row of code. -/
def codes : List Datum → ObjectId → List Value
  | [], _ => []
  | d :: ds, start => d.code start :: codes ds (d.build start).2

/-- The code of a call. -/
abbrev call (name : Text) (operands : List Datum) : Datum := .ofList (.sym name :: operands)

/-- The code of the empty list. -/
abbrev quotedNil : Datum := .prefixed "quote" .nil

end Datum

/-- The definition of a procedure. -/
structure Definition where
  name : Text
  params : Params
  body : List Datum

namespace Definition

/-- The definition as it is written. -/
def datum (d : Definition) : Datum :=
  .ofList (.sym "define" :: .pair (.sym d.name) (.ofItems (d.params.required.map .sym)
    (d.params.rest.elim .nil .sym)) :: d.body)

/-- The procedure that it makes in a scope. -/
def closure (d : Definition) (start : ObjectId) (scope : ScopeId) : Closure :=
  ⟨some d.name, d.params, Datum.codes d.body start, scope⟩

end Definition

/-! ### Definitions -/

namespace Prelude

open Datum (call quotedNil)

def caar : Definition := ⟨"caar", ⟨["x"], none⟩, [call "car" [call "car" [.sym "x"]]]⟩

def cadr : Definition := ⟨"cadr", ⟨["x"], none⟩, [call "car" [call "cdr" [.sym "x"]]]⟩

def cdar : Definition := ⟨"cdar", ⟨["x"], none⟩, [call "cdr" [call "car" [.sym "x"]]]⟩

def cddr : Definition := ⟨"cddr", ⟨["x"], none⟩, [call "cdr" [call "cdr" [.sym "x"]]]⟩

def caddr : Definition := ⟨"caddr", ⟨["x"], none⟩, [call "car" [call "cdr" [call "cdr" [.sym "x"]]]]⟩

/-- The code of the test inside `map`. -/
def anyNullBody : Datum :=
  call "cond" [.ofList [call "null?" [.sym "ls"], .bool false],
    .ofList [call "null?" [call "car" [.sym "ls"]], .bool true],
    .ofList [.sym "else", call "any-null?" [call "cdr" [.sym "ls"]]]]

/-- The test inside `map` that tells whether one of the lists is empty. -/
def anyNull : Definition := ⟨"any-null?", ⟨["ls"], none⟩, [anyNullBody]⟩

/-- A loop of two variables. -/
def loop (x : Text) (init : Datum) (y : Text) (init' body : Datum) : Datum :=
  call "let" [.sym "loop", .ofList [.ofList [.sym x, init], .ofList [.sym y, init']], body]

/-- The loop of the mapping of one list inside `map`. -/
def mapOneLoop : Datum :=
  call "if" [call "null?" [.sym "l"], call "reverse" [.sym "acc"],
    call "loop" [call "cdr" [.sym "l"], call "cons" [call "g" [call "car" [.sym "l"]], .sym "acc"]]]

/-- The mapping of one list inside `map`. -/
def mapOne : Definition :=
  ⟨"map1", ⟨["g", "l"], none⟩, [loop "l" (.sym "l") "acc" quotedNil mapOneLoop]⟩

/-- The loop of `map`. -/
def mapLoop : Datum :=
  call "if" [call "any-null?" [.sym "ls"], call "reverse" [.sym "acc"],
    call "loop" [call "map1" [.sym "cdr", .sym "ls"],
      call "cons" [call "apply" [.sym "f", call "map1" [.sym "car", .sym "ls"]], .sym "acc"]]]

def map : Definition :=
  ⟨"map", ⟨["f"], some "lists"⟩,
    [anyNull.datum, mapOne.datum, loop "ls" (.sym "lists") "acc" quotedNil mapLoop]⟩

def forEach : Definition :=
  ⟨"for-each", ⟨["f"], some "lists"⟩,
    [call "apply" [.sym "map", .sym "f", .sym "lists"], call "if" [.bool false, .bool false]]⟩

/-- The loop of `filter`. -/
def filterLoop : Datum :=
  call "cond" [.ofList [call "null?" [.sym "l"], call "reverse" [.sym "acc"]],
    .ofList [call "pred" [call "car" [.sym "l"]],
      call "loop" [call "cdr" [.sym "l"], call "cons" [call "car" [.sym "l"], .sym "acc"]]],
    .ofList [.sym "else", call "loop" [call "cdr" [.sym "l"], .sym "acc"]]]

def filter : Definition :=
  ⟨"filter", ⟨["pred", "l"], none⟩, [loop "l" (.sym "l") "acc" quotedNil filterLoop]⟩

/-- The code of `fold-left`. -/
def foldLeftBody : Datum :=
  call "if" [call "null?" [.sym "l"], .sym "init",
    call "fold-left" [.sym "f", call "f" [.sym "init", call "car" [.sym "l"]], call "cdr" [.sym "l"]]]

def foldLeft : Definition := ⟨"fold-left", ⟨["f", "init", "l"], none⟩, [foldLeftBody]⟩

/-- The loop of `fold-right`. -/
def foldRightLoop : Datum :=
  call "if" [call "null?" [.sym "l"], .sym "acc",
    call "loop" [call "cdr" [.sym "l"], call "f" [call "car" [.sym "l"], .sym "acc"]]]

def foldRight : Definition :=
  ⟨"fold-right", ⟨["f", "init", "l"], none⟩,
    [loop "l" (call "reverse" [.sym "l"]) "acc" (.sym "init") foldRightLoop]⟩

/-- The search of a list of lists for one with a first item that a test finds the same. -/
def association (name test : Text) : Definition :=
  ⟨name, ⟨["key", "alist"], none⟩,
    [call "cond" [.ofList [call "null?" [.sym "alist"], .bool false],
      .ofList [call test [.sym "key", call "caar" [.sym "alist"]], call "car" [.sym "alist"]],
      .ofList [.sym "else", call name [.sym "key", call "cdr" [.sym "alist"]]]]]⟩

def assq : Definition := association "assq" "eq?"

def assoc : Definition := association "assoc" "equal?"

def member : Definition :=
  ⟨"member", ⟨["x", "l"], none⟩,
    [call "cond" [.ofList [call "null?" [.sym "l"], .bool false],
      .ofList [call "equal?" [.sym "x", call "car" [.sym "l"]], .sym "l"],
      .ofList [.sym "else", call "member" [.sym "x", call "cdr" [.sym "l"]]]]]⟩

/-- The procedures that the prelude defines, in order. -/
def definitions : List Definition :=
  [caar, cadr, cdar, cddr, caddr, map, forEach, filter, foldLeft, foldRight, assq, assoc, member]

/-- The definition of the conditional with one branch for a false test. -/
def unlessDatum : Datum :=
  .ofList [.sym "define-macro", .ofItems [.sym "unless", .sym "test"] (.sym "body"),
    .prefixed "quasiquote" (.ofList [.sym "if", .ofList [.sym "not", .prefixed "unquote" (.sym "test")],
      .ofList [.sym "begin", .prefixed "unquote-splicing" (.sym "body")]])]

/-- The forms of the prelude. -/
def forms : List Datum := definitions.map Definition.datum ++ [whenDatum, unlessDatum]

end Prelude

/-! ### The source as it is read -/

namespace Datum

/-- Whether two data of symbols, truth values and lists are the same. -/
def agrees : Datum → Datum → Bool
  | .bool a, .bool b => a == b
  | .sym a, .sym b => Text.same a b
  | .nil, .nil => true
  | .pair a b, .pair c d => agrees a c && agrees b d
  | _, _ => false

theorem eq_of_agrees {d e : Datum} (h : agrees d e = true) : d = e := by
  induction d generalizing e with
  | bool a =>
    cases e with
    | bool b => rw [eq_of_beq h]
    | _ => exact nomatch h
  | sym a =>
    cases e with
    | sym b => rw [Text.same_iff.mp h]
    | _ => exact nomatch h
  | nil =>
    cases e with
    | nil => rfl
    | _ => exact nomatch h
  | pair a b ih ih' =>
    cases e with
    | pair c d =>
      obtain ⟨hhead, htail⟩ := Bool.and_eq_true_iff.mp h
      rw [ih hhead, ih' htail]
    | _ => exact nomatch h
  | _ => cases e <;> exact nomatch h

/-- Whether two rows of such data are the same. -/
def agreeAll : List Datum → List Datum → Bool
  | [], [] => true
  | d :: ds, e :: es => agrees d e && agreeAll ds es
  | _, _ => false

theorem eq_of_agreeAll : ∀ {ds es : List Datum}, agreeAll ds es = true → ds = es
  | [], [], _ => rfl
  | [], _ :: _, h => nomatch h
  | _ :: _, [], h => nomatch h
  | d :: ds, e :: es, h => by
    obtain ⟨hhead, htail⟩ := Bool.and_eq_true_iff.mp h
    rw [eq_of_agrees hhead, eq_of_agreeAll htail]

end Datum

open Prelude in
set_option maxRecDepth 100000 in
/-- The source of the prelude is read as its definitions. -/
theorem forms_preludeSource : Datum.agreeAll (readAll 50 preludeSource).forms
    Prelude.forms = true := by
  rw [preludeSource, Text.ofString_ofList]
  decide +kernel

theorem readAll_preludeSource_eq {nesting : Nat} (hnesting : 50 ≤ nesting) : readAll nesting preludeSource =
    ⟨Prelude.forms, none⟩ := by
  have hchecks := readAll_preludeSource
  have hforms := Datum.eq_of_agreeAll forms_preludeSource
  simp only [Bool.and_eq_true, Option.isNone_iff_eq_none] at hchecks
  have hfailure := hchecks.1.1
  have hread : readAll nesting preludeSource = readAll 50 preludeSource := by
    rcases readAll_mono hnesting preludeSource with heq | ⟨hdeep, _⟩
    · exact heq
    · cases hfailure.symm.trans hdeep
  rw [hread]
  clear hread hchecks
  generalize readAll 50 preludeSource = reading at *
  cases reading
  cases hforms
  cases hfailure
  rfl

/-! ### Procedures in a store -/

/-- A value is the procedure of a definition that was evaluated in the root. -/
def Store.IsProcedure (s : Store) (d : Definition) (v : Value) : Prop :=
  ∃ c start, v = .atom (.closure c) ∧ s.closures[c]? = some (d.closure start rootScope)

namespace Prelude

/-- The names that the procedures of the prelude use of what is bound from the start. -/
def builtinNames : List Text :=
  ["apply", "car", "cdr", "cond", "cons", "define", "eq?", "equal?", "if", "let", "null?", "quote", "reverse"]

/-- The procedures of the prelude that its procedures use, themselves and each other. -/
def shared : List Definition := [caar, map, foldLeft, assq, assoc, member]

/-- The names that the procedures of the prelude use and do not bind. -/
def globalNames : List Text := builtinNames ++ shared.map Definition.name

/-- The names of their own variables and helpers. -/
def ownNames : List Text :=
  ["acc", "alist", "any-null?", "f", "g", "init", "key", "l", "lists", "loop", "ls", "map1", "pred", "x"]

theorem shared_subset : shared ⊆ definitions := by
  intro d hd
  simp only [shared, List.mem_cons, List.not_mem_nil, or_false] at hd
  rcases hd with rfl | rfl | rfl | rfl | rfl | rfl
  · exact List.mem_of_getElem? (i := 0) rfl
  · exact List.mem_of_getElem? (i := 5) rfl
  · exact List.mem_of_getElem? (i := 8) rfl
  · exact List.mem_of_getElem? (i := 10) rfl
  · exact List.mem_of_getElem? (i := 11) rfl
  · exact List.mem_of_getElem? (i := 12) rfl

/-- All names that the procedures of the prelude use. -/
def usedNames : List Text := globalNames ++ ownNames

theorem ownNames_disjoint : ∀ name ∈ ownNames, name ∉ globalNames := by decide +kernel

end Prelude

/-- The names that the procedures of the prelude use mean what they should, and no transformers. -/
structure Store.KnowsNames (s : Store) : Prop where
  wellFormed : s.WellFormed
  builtin : ∀ name ∈ Prelude.builtinNames, s.scopes.lookup? rootScope name = initialBindings.find? name
  shared : ∀ d ∈ Prelude.shared, ∃ v, s.scopes.lookup? rootScope d.name = some v ∧ s.IsProcedure d v
  plain : ∀ name ∈ Prelude.usedNames, s.scopes.transformer? rootScope name = none

/-- The prelude is loaded: its procedures stand in the root, and the names that they use mean what they should. -/
structure Store.HasPrelude (s : Store) : Prop extends s.KnowsNames where
  procedures : ∀ d ∈ Prelude.definitions, ∃ v, s.scopes.lookup? rootScope d.name = some v ∧ s.IsProcedure d v

/-! ### Definitions are evaluated -/

/-- A definition is made as a call of the form that defines, and its parameters are read. -/
def Definition.IsRead (d : Definition) : Prop :=
  d.datum.isCode = true ∧ d.body ≠ [] ∧ initialBindings.find? d.name = none ∧
    ∀ start, ∃ id id' formals last start', d.datum.code start =
      .call id "define" (.list id' (.sym d.name) formals last :: Datum.codes d.body start') ∧
      Params.parse "define" (.assemble id' formals last) = .ok d.params

theorem Prelude.definitions_areRead : ∀ d ∈ definitions, d.IsRead := by
  have hnew : ∀ d ∈ definitions, initialBindings.find? d.name = none := by decide +kernel
  intro d hd
  have hname := hnew d hd
  simp only [definitions, List.mem_cons, List.not_mem_nil, or_false] at hd
  rcases hd with rfl | rfl | rfl | rfl | rfl | rfl | rfl | rfl | rfl | rfl | rfl | rfl | rfl
  all_goals exact ⟨rfl, List.cons_ne_nil _ _, hname, fun start => ⟨_, _, _, _, _, rfl, rfl⟩⟩

/-- What definitions leave: everything as usual, all closures, the procedures that they define, and the meaning of
all other names. -/
structure Store.DefinesAll (s : Store) (env : Env) (ds : List Definition) (s' : Store) (env' : Env) : Prop where
  inRoot : s'.InRoot env'
  closures : ∀ (c : ClosureId) (proc : Closure), s.closures[c]? = some proc → s'.closures[c]? = some proc
  others : ∀ name ∉ ds.map Definition.name, env'.value name = env.value name
  transformer : env'.transformer = env.transformer
  procedures : ∀ d ∈ ds, ∃ v, env'.value d.name = some v ∧ s'.IsProcedure d v

/-- Definitions of different names are evaluated one after another, with what is behind them. -/
theorem evalData_definitions {ds : List Definition} (hds : ∀ d ∈ ds, d.IsRead)
    (hnames : (ds.map Definition.name).Nodup) {more : List Datum} (hmore : more ≠ []) {s : Store} {env : Env}
    (h : s.InRoot env) (nesting depth : Nat) :
    ∃ s' env', (∀ rounds > 0, (Evaluator.nested rounds nesting (depth + 2)).evalData rootScope
        (ds.map Definition.datum ++ more) s =
          (Evaluator.nested rounds nesting (depth + 2)).evalData rootScope more s') ∧
      s.DefinesAll env ds s' env' := by
  induction ds generalizing s env with
  | nil => exact ⟨s, env, fun _ _ => rfl, h, fun _ _ hc => hc, fun _ _ => rfl, rfl, fun _ hd => nomatch hd⟩
  | cons d ds ih =>
    obtain ⟨hcode, hbody, hnew, hread⟩ := hds d List.mem_cons_self
    obtain ⟨hname, hnames⟩ := List.nodup_cons.mp hnames
    obtain ⟨id, id', formals, last, start, heq, hparams⟩ := hread s.nextObject
    let s₁ : Store := { s with nextObject := (d.datum.build s.nextObject).2 }
    have h₁ : s₁.InRoot env := ⟨h.sees, h.usual⟩
    have hbody' : Datum.codes d.body start ≠ [] := by
      cases hd : d.body with
      | nil => exact absurd hd hbody
      | cons => exact List.cons_ne_nil _ _
    have hdefine : Evaluator.Gives nesting (depth + 2) (d.datum.code s.nextObject) rootScope s₁ .void
        (s₁.withProcedure rootScope (d.closure start rootScope) d.name) := by
      rw [heq]
      exact (Evaluator.Steps.defineProcedure h₁.sees h₁.usual hparams hbody').gives
    -- The name is new and stands for no form, so the environment stays one of a root scope.
    have hroot := h₁.withProcedure hnew (d.closure start rootScope)
    obtain ⟨s', env', heval, hall⟩ := ih (fun d' hd' => hds d' (List.mem_cons_of_mem d hd')) hnames hroot
    refine ⟨s', env', fun rounds hrounds => ?_, ?_⟩
    · have hnext : ds.map Definition.datum ++ more ≠ [] := List.append_ne_nil_of_right_ne_nil _ hmore
      obtain ⟨next, rest, hrest⟩ := List.exists_cons_of_ne_nil hnext
      rw [← heval rounds hrounds, List.map_cons, List.cons_append, hrest]
      exact (bind_of_ok (Action.instantiate_eq_build hcode s)).trans (bind_of_ok (hdefine rounds hrounds))
    · refine ⟨hall.inRoot, fun c proc hc => hall.closures c proc (getElem?_push_of_some hc _),
        fun name hname' => ?_, hall.transformer, fun d' hd' => ?_⟩
      · have hne : name ≠ d.name := fun he => hname' (he ▸ List.mem_cons_self)
        refine (hall.others name fun hmem => hname' (List.mem_cons_of_mem _ hmem)).trans ?_
        exact if_neg hne
      · rcases List.mem_cons.mp hd' with rfl | hd'
        · refine ⟨.atom (.closure s.closures.size), ?_, s.closures.size, start, rfl,
            hall.closures _ _ Array.getElem?_push_size⟩
          exact (hall.others _ hname).trans (Env.value_define_self _ _ _)
        · exact hall.procedures d' hd'

/-- One more definition behind them, of a procedure or a transformer. -/
theorem evalData_defined {d : Datum} {name : Text} (hexact : d.isExact = true) (hd : d.defined? = some name)
    (hnew : initialBindings.find? name = none) {s : Store} {env : Env} (h : s.InRoot env) (nesting depth : Nat) :
    ∃ s' env', s'.InRoot env' ∧ env.AgreesOutside [name] env' ∧
      (∀ (c : ClosureId) (proc : Closure), s.closures[c]? = some proc → s'.closures[c]? = some proc) ∧
      ∀ rounds > 0, ∀ more, (Evaluator.nested rounds nesting (depth + 2)).evalData rootScope (d :: more) s =
        if more = [] then .ok .void s'
        else (Evaluator.nested rounds nesting (depth + 2)).evalData rootScope more s' := by
  obtain ⟨v, s₁, hv, hadds, hdatum⟩ := Action.instantiate_spec ((Datum.isExact_iff d).mp hexact) s
  obtain ⟨s', env', hgives, hdefines⟩ :=
    exists_defines hd hnew (h.adds hadds) (hdatum s₁ (.refl s₁)) nesting depth
  refine ⟨s', env', hdefines.inRoot, hdefines.others List.mem_cons_self, fun c proc hc => ?_,
    fun rounds hrounds more => ?_⟩
  · obtain ⟨buffers, next, rfl⟩ := hadds
    exact hdefines.closures c proc hc
  · cases more with
    | nil => exact (bind_of_ok hv).trans (hgives rounds hrounds)
    | cons next more => exact (bind_of_ok hv).trans (bind_of_ok (hgives rounds hrounds))

namespace Prelude

/-- The forms of the prelude are evaluated one after another, and then the prelude is there. -/
theorem evalData_forms {s : Store} (hs : s.WellFormed) {env : Env} (h : s.InRoot env)
    (hplain : ∀ name, env.transformer name = none) (nesting depth : Nat) :
    ∃ s', (∀ rounds > 0, (Evaluator.nested rounds nesting (depth + 2)).evalData rootScope forms s = .ok .void s') ∧
      s'.HasPrelude := by
  have hnames : (definitions.map Definition.name).Nodup := by decide +kernel
  have hwhen : ("when" : Text) ∉ definitions.map Definition.name := by decide +kernel
  have hunless : ("unless" : Text) ∉ definitions.map Definition.name := by decide +kernel
  -- Three parts: the procedures, and the two forms that are defined by transformers.
  obtain ⟨s₁, env₁, heval₁, hall⟩ := evalData_definitions definitions_areRead hnames
    (List.cons_ne_nil whenDatum [unlessDatum]) h nesting depth
  obtain ⟨s₂, env₂, hroot₂, hothers₂, hclosures₂, heval₂⟩ :=
    evalData_defined (d := whenDatum) rfl rfl (by decide +kernel) hall.inRoot nesting depth
  obtain ⟨s₃, env₃, hroot₃, hothers₃, hclosures₃, heval₃⟩ :=
    evalData_defined (d := unlessDatum) rfl rfl (by decide +kernel) hroot₂ nesting depth
  have hforms : ∀ rounds > 0,
      (Evaluator.nested rounds nesting (depth + 2)).evalData rootScope forms s = .ok .void s₃ := by
    intro rounds hrounds
    rw [forms, heval₁ rounds hrounds, heval₂ rounds hrounds, if_neg (List.cons_ne_nil _ _), heval₃ rounds hrounds,
      if_pos rfl]
  -- What the procedures are bound to outlasts the two forms, as their names are others.
  have hkept : ∀ name : Text, name ≠ "when" → name ≠ "unless" →
      env₃.value name = env₁.value name ∧ env₃.transformer name = none := by
    intro name hne hne'
    have h₂ := hothers₂ name (fun hmem => hne (List.mem_singleton.mp hmem))
    have h₃ := hothers₃ name (fun hmem => hne' (List.mem_singleton.mp hmem))
    refine ⟨h₃.1.trans h₂.1, h₃.2.trans (h₂.2.trans ?_)⟩
    rw [hall.transformer, hplain]
  have hprocedures : ∀ d ∈ definitions, ∃ v, s₃.scopes.lookup? rootScope d.name = some v ∧ s₃.IsProcedure d v := by
    intro d hd
    obtain ⟨v, hv, c, start, hc, hproc⟩ := hall.procedures d hd
    have hmem := List.mem_map_of_mem (f := Definition.name) hd
    refine ⟨v, ?_, c, start, hc, hclosures₃ _ _ (hclosures₂ _ _ hproc)⟩
    rw [hroot₃.sees.value, (hkept d.name (fun he => hwhen (he ▸ hmem)) (fun he => hunless (he ▸ hmem))).1, hv]
  have hevolves := (((Evaluator.nested_evolving 1 nesting (depth + 2)).evalData h.sees.lt_size forms) hs).1
  rw [Action.after_of_ok (hforms 1 Nat.one_pos)] at hevolves
  refine ⟨s₃, hforms, ⟨⟨hevolves.wellFormed hs, fun name hname => ?_, fun d hd => hprocedures d (shared_subset hd),
    fun name hname => ?_⟩, hprocedures⟩⟩
  · have hbound : ∀ name ∈ builtinNames, (initialBindings.find? name).isSome = true := by decide +kernel
    obtain ⟨v, hv⟩ := Option.isSome_iff_exists.mp (hbound name hname)
    rw [hroot₃.sees.value, (hroot₃.usual name v hv).1, hv]
  · have hother : ∀ name ∈ usedNames, name ≠ "when" ∧ name ≠ "unless" := by decide +kernel
    rw [hroot₃.sees.transformer]
    exact (hkept name (hother name hname).1 (hother name hname).2).2

end Prelude

/-- A session that starts with the prelude evaluates its forms. -/
theorem Session.start_standard {nesting : Nat} (hnesting : 50 ≤ nesting) {rounds depth : Nat} {s s' : Store}
    (h : (Evaluator.nested rounds nesting depth).evalData rootScope Prelude.forms s = .ok .void s') :
    start (.nested rounds nesting depth) (.standard none) s = .ok () s' := by
  have hlimited : Action.limited ((Evaluator.nested rounds nesting depth).evalData rootScope Prelude.forms) s =
      .ok .void s' := by rw [Action.limited, h]
  have hbound : ∀ depth, (Evaluator.nested rounds nesting depth).nesting = nesting := fun depth => by
    cases depth <;> rfl
  have hevaluate : evaluate (.nested rounds nesting depth) preludeSource s = .ok .void s' := by
    rw [evaluate, hbound, readAll_preludeSource_eq hnesting]
    exact (bind_of_ok hlimited).trans rfl
  exact (bind_of_ok hevaluate).trans rfl

/-- A new session that starts with the prelude has it. -/
theorem Session.start_hasPrelude {nesting : Nat} (hnesting : 50 ≤ nesting) (depth : Nat) :
    ∃ s, (∀ rounds > 0, (Evaluator.nested rounds nesting (depth + 2)).evalData rootScope Prelude.forms emptyStore =
        .ok .void s ∧ start (.nested rounds nesting (depth + 2)) (.standard none) emptyStore = .ok () s) ∧
      s.HasPrelude := by
  have hroot : emptyStore.InRoot Env.initial := ⟨initialStore_sees [] _ _ [], Env.initial_isUsual⟩
  obtain ⟨s, hforms, hs⟩ :=
    Prelude.evalData_forms (initialStore_wellFormed [] _ _ []) hroot (fun _ => rfl) nesting depth
  exact ⟨s, fun rounds hrounds => ⟨hforms rounds hrounds, start_standard hnesting (hforms rounds hrounds)⟩, hs⟩

end Lisplet
