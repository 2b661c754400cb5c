import Lisplet.Proofs.FormShapes
import Lisplet.Proofs.SingleSteps

/-!
# Parameter patterns

A parameter expression is a pattern on a row of arguments, read along its chain of pairs: the empty list
matches no arguments, a symbol takes all that are left as one list, and a symbol in front of a pattern takes
one argument and leaves the others to that pattern.

Parameters spell the chain that they are read from. So reading accepts the patterns and nothing else, the
arity of the parameters admits the counts that the pattern matches, as do the tests of a call, and the bindings of a
call are those of the match.
-/

namespace Lisplet

/-! ### Entries put one after another -/

namespace Table

variable {α : Type}

theorem find?_append (name : Text) (front back : Table α) :
    find? name (front ++ back) = (front.find? name).or (back.find? name) := by
  induction front with
  | nil => rw [List.nil_append, find?, Option.none_or]
  | cons entry front ih =>
    rw [List.cons_append, find?, find?]
    split
    · rw [Option.some_or]
    · exact ih

/-- A name means what was put under it last. -/
theorem find?_foldl_put (name : Text) (entries t : Table α) :
    (entries.foldl (fun t entry => put entry.1 entry.2 t) t).find? name =
      (find? name entries.reverse).or (t.find? name) := by
  induction entries generalizing t with
  | nil => rw [List.foldl_nil, List.reverse_nil, find?, Option.none_or]
  | cons entry entries ih =>
    rw [List.foldl_cons, ih, find?_put_eq, List.reverse_cons, find?_append, Option.or_assoc]
    congr 1
    split
    · next h => rw [h, find?_cons_self, Option.some_or]
    · next h => rw [find?_cons_of_ne (Ne.symm h), find?, Option.none_or]

theorem nodup_names_put {t : Table α} (h : t.names.Nodup) (name : Text) (a : α) :
    (t.put name a).names.Nodup := by
  rw [names_put]
  split
  · exact h
  · next hnotin =>
    refine List.nodup_append.mpr ⟨h, List.pairwise_singleton _ name, fun other hother same hsame hne => ?_⟩
    rw [hne, List.mem_singleton.mp hsame] at hother
    exact hnotin hother

theorem nodup_names_foldl_put (entries : Table α) {t : Table α} (h : t.names.Nodup) :
    (entries.foldl (fun t entry => put entry.1 entry.2 t) t).names.Nodup := by
  induction entries generalizing t with
  | nil => exact h
  | cons entry entries ih => exact ih (nodup_names_put h entry.1 entry.2)

end Table

/-! ### Patterns -/

namespace Value

/-- The expressions that are patterns. -/
inductive IsPattern : Value → Prop
  | empty : IsPattern .nil
  | rest (name : Text) : IsPattern (.sym name)
  | single {v tail : Value} (id : ObjectId) {name : Text} (hhead : v.head? = some (.sym name))
      (htail : v.tail? id = some tail) (hmore : IsPattern tail) : IsPattern v

/-- What a pattern binds when it matches a row of arguments: names with values, in order. The arguments that
a symbol in tail position takes become the list of the given identity. -/
inductive Matches (restList : ObjectId) : Value → List Value → List (Text × Value) → Prop
  | empty : Matches restList .nil [] []
  | rest (name : Text) (args : List Value) :
      Matches restList (.sym name) args [(name, .ofList restList args)]
  | single {v tail : Value} (id : ObjectId) {name : Text} {arg : Value} {args : List Value}
      {pairs : List (Text × Value)} (hhead : v.head? = some (.sym name)) (htail : v.tail? id = some tail)
      (hmore : Matches restList tail args pairs) : Matches restList v (arg :: args) ((name, arg) :: pairs)

/-- A list by its first item and what follows it. -/
theorem of_head?_tail? {v head tail : Value} {id : ObjectId} (hhead : v.head? = some head)
    (htail : v.tail? id = some tail) : v.items = head :: tail.items ∧ v.ending = tail.ending := by
  cases v with
  | atom a => cases hhead
  | nil => cases hhead
  | list _ _ rest last =>
    cases hhead
    cases htail
    exact ⟨by rw [items_assemble, items], by rw [ending_assemble, ending]⟩

/-- A value with items is a list. -/
theorem exists_head?_tail? {v head : Value} {rest : List Value} (h : v.items = head :: rest) (id : ObjectId) :
    ∃ tail, v.head? = some head ∧ v.tail? id = some tail ∧ tail.items = rest ∧ tail.ending = v.ending := by
  cases v with
  | atom a => cases h
  | nil => cases h
  | list _ head' rest' last =>
    cases h
    exact ⟨assemble id rest last, rfl, rfl, items_assemble id rest last, ending_assemble id rest last⟩

end Value

namespace Params

open Value

/-- The parameters have the names of a parameter expression: one for each item, and one for its ending. -/
structure Spells (p : Params) (v : Value) : Prop where
  items : v.items = p.required.map Value.sym
  ending : v.ending = p.rest.map Atom.sym

variable {p : Params} {v tail : Value} {name : Text} {names : List Text} {rest : Option Text}

theorem symbolNames_eq_ok_iff {form : Text} {position : Nat} {vs : List Value} :
    symbolNames form position vs = .ok names ↔ vs = names.map Value.sym := by
  induction vs generalizing position names with
  | nil =>
    rw [symbolNames, Except.ok.injEq]
    exact ⟨fun h => by rw [← h, List.map_nil], fun h => (List.map_eq_nil_iff.mp h.symm).symm⟩
  | cons v vs ih =>
    constructor
    · intro h
      rw [symbolNames.eq_def] at h
      split at h
      · next heq => cases heq
      · next name more heq =>
        cases heq
        cases hmore : symbolNames form (_ + 1) vs with
        | error e =>
          rw [hmore] at h
          cases h
        | ok more =>
          rw [hmore] at h
          cases h
          rw [List.map_cons, ← ih.mp hmore]
      · cases h
    · intro h
      cases names with
      | nil => cases h
      | cons name more =>
        rw [List.map_cons] at h
        obtain ⟨rfl, hmore⟩ := List.cons.inj h
        rw [symbolNames, ih.mpr hmore]
        rfl

/-- The symbols of a list, its ending among them, are the names in the order of the row. -/
theorem parse_list_eq_ok_iff {form : Text} {id : ObjectId} {head : Value} {more : List Value}
    {last : Option Atom} : parse form (.list id head more last) = .ok p ↔
      ∃ names, (head :: more) ++ (last.map Value.atom).toList = names.map Value.sym ∧
        p = if last.isNone then ⟨names, none⟩ else ⟨names.dropLast, names.getLast?⟩ := by
  have hproper : (Value.list id head more last).isProper = last.isNone := by cases last <;> rfl
  have hparse : parse form (.list id head more last) =
      (symbolNames form 1 ((head :: more) ++ (last.map Value.atom).toList)).map fun names =>
        if last.isNone then ⟨names, none⟩ else ⟨names.dropLast, names.getLast?⟩ := by
    rw [← hproper]
    rfl
  rw [hparse]
  constructor
  · intro h
    cases hnames : symbolNames form 1 ((head :: more) ++ (last.map Value.atom).toList) with
    | error e =>
      rw [hnames] at h
      cases h
    | ok names =>
      rw [hnames] at h
      exact ⟨names, symbolNames_eq_ok_iff.mp hnames, (Except.ok.inj h).symm⟩
  · rintro ⟨names, hnames, rfl⟩
    rw [symbolNames_eq_ok_iff.mpr hnames]
    rfl

/-- What is read is what the parameters spell. -/
theorem spells_of_parse {form : Text} (h : parse form v = .ok p) : p.Spells v := by
  cases v with
  | atom a =>
    cases a with
    | sym name =>
      cases h
      exact ⟨rfl, rfl⟩
    | _ => cases h
  | nil =>
    cases h
    exact ⟨rfl, rfl⟩
  | list id head more last =>
    obtain ⟨names, hnames, hp⟩ := parse_list_eq_ok_iff.mp h
    cases last with
    | none =>
      cases hp
      exact ⟨(List.append_nil _).symm.trans hnames, rfl⟩
    | some a =>
      -- The last name of a dotted expression is that of the rest.
      obtain ⟨front, back, rfl, hfront, hback⟩ := List.map_eq_append_iff.mp hnames.symm
      obtain ⟨final, rfl, hfinal⟩ : ∃ final, back = [final] ∧ Atom.sym final = a := by
        obtain ⟨final, more, rfl, hfinal, hnil⟩ := List.map_eq_cons_iff.mp hback
        exact ⟨final, by rw [List.map_eq_nil_iff.mp hnil], Value.atom.inj hfinal⟩
      rw [List.dropLast_concat, List.getLast?_concat] at hp
      cases hp
      exact ⟨hfront.symm, congrArg some hfinal.symm⟩

/-- What parameters spell is read, as these parameters. -/
theorem Spells.parse_eq {form : Text} (h : p.Spells v) : parse form v = .ok p := by
  obtain ⟨required, rest⟩ := p
  obtain ⟨hitems, hending⟩ := h
  cases v with
  | atom a =>
    obtain rfl := List.map_eq_nil_iff.mp hitems.symm
    obtain ⟨name, rfl, rfl⟩ := Option.map_eq_some_iff.mp hending.symm
    rfl
  | nil =>
    obtain rfl := List.map_eq_nil_iff.mp hitems.symm
    obtain rfl := Option.map_eq_none_iff.mp hending.symm
    rfl
  | list id head more last =>
    refine parse_list_eq_ok_iff.mpr ?_
    change head :: more = required.map Value.sym at hitems
    change last = rest.map Atom.sym at hending
    cases rest with
    | none =>
      subst hending
      exact ⟨required, (List.append_nil _).trans hitems, rfl⟩
    | some final =>
      subst hending
      refine ⟨required ++ [final], by rw [hitems, List.map_append]; rfl, ?_⟩
      rw [List.dropLast_concat, List.getLast?_concat]
      rfl

/-- Reading accepts exactly what parameters spell, and gives these parameters. -/
theorem parse_eq_ok_iff {form : Text} : parse form v = .ok p ↔ p.Spells v :=
  ⟨spells_of_parse, Spells.parse_eq⟩

/-- A name in front of what parameters spell. -/
theorem Spells.single {id : ObjectId} (hhead : v.head? = some (.sym name)) (htail : v.tail? id = some tail)
    (h : Spells p tail) : Spells ⟨name :: p.required, p.rest⟩ v := by
  obtain ⟨hitems, hending⟩ := of_head?_tail? hhead htail
  exact ⟨by rw [hitems, h.items, List.map_cons], hending.trans h.ending⟩

/-- What parameters without single ones spell: the empty list, or the symbol of the rest. -/
theorem Spells.cases_rest (h : Spells ⟨[], rest⟩ v) :
    (rest = none ∧ v = .nil) ∨ ∃ name, rest = some name ∧ v = .sym name := by
  obtain ⟨hitems, hending⟩ := h
  cases v with
  | atom a =>
    obtain ⟨name, hname, rfl⟩ := Option.map_eq_some_iff.mp hending.symm
    exact .inr ⟨name, hname, rfl⟩
  | nil => exact .inl ⟨Option.map_eq_none_iff.mp hending.symm, rfl⟩
  | list _ _ _ _ => cases hitems

/-- What parameters with a single one spell: its symbol in front of what the others spell. -/
theorem Spells.exists_tail (h : Spells ⟨name :: names, rest⟩ v) (id : ObjectId) :
    ∃ tail, v.head? = some (.sym name) ∧ v.tail? id = some tail ∧ Spells ⟨names, rest⟩ tail := by
  obtain ⟨tail, hhead, htail, hitems, hending⟩ := exists_head?_tail? h.items id
  exact ⟨tail, hhead, htail, hitems, hending.trans h.ending⟩

/-- The patterns are what parameters spell. -/
theorem isPattern_iff : v.IsPattern ↔ ∃ p : Params, p.Spells v := by
  constructor
  · intro h
    induction h with
    | empty => exact ⟨⟨[], none⟩, rfl, rfl⟩
    | rest name => exact ⟨⟨[], some name⟩, rfl, rfl⟩
    | single id hhead htail hmore ih =>
      obtain ⟨p, hp⟩ := ih
      exact ⟨_, hp.single hhead htail⟩
  · rintro ⟨⟨required, rest⟩, h⟩
    induction required generalizing v with
    | nil =>
      rcases h.cases_rest with ⟨rfl, rfl⟩ | ⟨name, rfl, rfl⟩
      · exact .empty
      · exact .rest name
    | cons name names ih =>
      obtain ⟨tail, hhead, htail, hmore⟩ := h.exists_tail 0
      exact .single 0 hhead htail (ih hmore)

/-! ### Matches -/

/-- What the parameters bind to the arguments of a call: one pair for each parameter, in order. -/
def pairs (p : Params) (restList : ObjectId) (args : List Value) : List (Text × Value) :=
  p.required.zip args ++
    (p.rest.map fun name => (name, Value.ofList restList (args.drop p.required.length))).toList

/-- Where nothing takes the rest the arguments are as many as the names, and otherwise no fewer. -/
theorem arity_accepts_iff {count : Nat} : (arity ⟨names, rest⟩).accepts count = true ↔
    names.length ≤ count ∧ (rest = none → count = names.length) := by
  cases rest with
  | none =>
    rw [show arity ⟨names, none⟩ = .exact names.length from rfl, Arity.accepts_exact]
    exact ⟨fun h => ⟨by omega, fun _ => by omega⟩, fun h => congrArg Int.ofNat (h.2 rfl)⟩
  | some name =>
    rw [show arity ⟨names, some name⟩ = .atLeast names.length from rfl, Arity.accepts_atLeast]
    exact ⟨fun h => ⟨by omega, fun hrest => by cases hrest⟩, fun h => Int.ofNat_le.mpr h.1⟩

/-- A pattern matches the rows of arguments whose number its parameters admit, and binds what they bind. -/
theorem Spells.matches_iff (h : p.Spells v) {restList : ObjectId} {args : List Value}
    {found : List (Text × Value)} :
    v.Matches restList args found ↔ p.arity.accepts args.length = true ∧ found = p.pairs restList args := by
  obtain ⟨required, rest⟩ := p
  rw [arity_accepts_iff]
  induction required generalizing v args found with
  | nil =>
    rcases h.cases_rest with ⟨rfl, rfl⟩ | ⟨name, rfl, rfl⟩
    · constructor
      · intro hm
        cases hm with
        | empty => exact ⟨⟨Nat.le_refl 0, fun _ => rfl⟩, rfl⟩
        | single _ hhead _ _ => cases hhead
      · rintro ⟨⟨_, hnone⟩, rfl⟩
        obtain rfl := List.length_eq_zero_iff.mp (hnone rfl)
        exact .empty
    · constructor
      · intro hm
        cases hm with
        | rest => exact ⟨⟨Nat.zero_le _, fun hrest => by cases hrest⟩, rfl⟩
        | single _ hhead _ _ => cases hhead
      · rintro ⟨_, rfl⟩
        exact .rest name args
  | cons name names ih =>
    constructor
    · intro hm
      cases hm with
      | empty => cases h.items
      | rest => cases h.items
      | single _ hhead htail hmore =>
        obtain ⟨tail, hhead', htail', hspells⟩ := h.exists_tail _
        cases hhead.symm.trans hhead'
        cases htail.symm.trans htail'
        obtain ⟨⟨hle, hnone⟩, rfl⟩ := (ih hspells).mp hmore
        exact ⟨⟨Nat.succ_le_succ hle, fun hrest => congrArg Nat.succ (hnone hrest)⟩, rfl⟩
    · rintro ⟨⟨hle, hnone⟩, rfl⟩
      cases args with
      | nil => exact absurd hle (Nat.not_succ_le_zero _)
      | cons arg args =>
        obtain ⟨tail, hhead, htail, hspells⟩ := h.exists_tail 0
        exact .single 0 hhead htail ((ih hspells).mpr
          ⟨⟨Nat.le_of_succ_le_succ hle, fun hrest => Nat.succ.inj (hnone hrest)⟩, rfl⟩)

/-- A name that comes twice is bound twice, and what is left over goes to the last symbol. -/
example : Matches 7 (.list 0 (.sym "a") [.sym "b"] (some (.sym "a"))) [.int 1, .int 2, .int 3]
    [("a", .int 1), ("b", .int 2), ("a", .ofList 7 [.int 3])] :=
  .single 0 rfl rfl (.single 0 rfl rfl (.rest "a" [.int 3]))

theorem bindings_eq (p : Params) (restList : ObjectId) (args : List Value) :
    p.bindings restList args = (p.pairs restList args).foldl (fun t entry => Table.put entry.1 entry.2 t) [] := by
  obtain ⟨required, rest⟩ := p
  cases rest with
  | none =>
    rw [pairs, Option.map_none, Option.toList_none, List.append_nil]
    rfl
  | some name =>
    rw [pairs, Option.map_some, Option.toList_some, List.foldl_append]
    rfl

/-- A pattern is read by its chain: the identity of the list in front does not matter. -/
theorem spells_assemble_iff {id : ObjectId} :
    p.Spells (.assemble id v.items v.ending) ↔ p.Spells v := by
  constructor
  · intro h
    exact ⟨(items_assemble id _ _).symm.trans h.items, (ending_assemble id _ _).symm.trans h.ending⟩
  · intro h
    exact ⟨(items_assemble id _ _).trans h.items, (ending_assemble id _ _).trans h.ending⟩

/-- What is no pattern is refused with a wrong shape. -/
theorem exists_parse_eq_error (h : ¬ v.IsPattern) (form : Text) : ∃ e, parse form v = .error e := by
  cases hparse : parse form v with
  | error e => exact ⟨e, rfl⟩
  | ok p => exact absurd (isPattern_iff.mpr ⟨p, parse_eq_ok_iff.mp hparse⟩) h

end Params

/-! ### Procedures made of patterns -/

/-- Applying a closure takes the arguments apart as a pattern says. Its arity admits the counts that the
pattern matches. Arguments that do not match are refused where nothing is changed but for one more scope, which is
empty; otherwise the body is run in one new scope inside the closure's own, which binds what the match binds, a
repeated name to its last value. -/
structure Closure.TakesApart (c : Closure) (pattern : Value) : Prop where
  arity {s : Store} {id : ClosureId} (hc : s.closures[id]? = some c) (restList : ObjectId) (args : List Value) :
    (s.procedureArity (.closure id)).accepts args.length = true ↔ ∃ found, pattern.Matches restList args found
  refuses {s : Store} {id : ClosureId} (hc : s.closures[id]? = some c) (ev : Evaluator) (args : List Value)
    (h : ¬ ∃ found, pattern.Matches s.nextObject args found) :
    ev.applyClosure id args s =
      .error (.failure (.arity c.params.arity c.shownName args.length)) (s.withScope c.scope [])
  enters {s : Store} {id : ClosureId} (hc : s.closures[id]? = some c) (ev : Evaluator) (args : List Value)
    {found : List (Text × Value)} (h : pattern.Matches s.nextObject args found) :
    ∃ t : Table Value, t.names.Nodup ∧ (∀ name, t.find? name = Table.find? name found.reverse) ∧
      ev.applyClosure id args s = ev.sequence s.scopes.size c.body (s.withObject.withScope c.scope t)

/-- The store with a new closure. -/
def Store.withClosure (s : Store) (c : Closure) : Store := { s with closures := s.closures.push c }

/-- What a form ends with that makes a procedure of a parameter expression and a body: a new closure of these
parts, which takes arguments apart as the pattern says, or else a wrong shape in the store as it is. -/
structure Value.MakesClosure (params : Value) (name : Option Text) (body : List Value) (scope : ScopeId)
    (s : Store) (outcome : EStateM.Result Signal Store Step)
    (made : Closure → EStateM.Result Signal Store Step) : Prop where
  accepts (h : params.IsPattern) : ∃ p : Params,
    Closure.TakesApart ⟨name, p, body, scope⟩ params ∧ outcome = made ⟨name, p, body, scope⟩
  rejects (h : ¬ params.IsPattern) : ∃ e, outcome = .error (.failure (.shape e)) s

/-- A closure with the parameters that a pattern spells takes arguments apart as it says. -/
theorem Params.Spells.takesApart {c : Closure} {v : Value} (h : c.params.Spells v) : c.TakesApart v where
  arity hc restList args := by
    rw [Store.procedureArity, hc]
    exact ⟨fun haccepts => ⟨_, h.matches_iff.mpr ⟨haccepts, rfl⟩⟩,
      fun hfound => hfound.elim fun _ hm => (h.matches_iff.mp hm).1⟩
  refuses {s id} hc ev args hno := by
    have harity : ¬ c.params.arity.accepts args.length = true :=
      fun haccepts => hno ⟨_, h.matches_iff.mpr ⟨haccepts, rfl⟩⟩
    exact Evaluator.applyClosure_of_not_accepts hc harity
  enters {s id} hc ev args found hm := by
    obtain ⟨harity, rfl⟩ := h.matches_iff.mp hm
    refine ⟨c.params.bindings s.nextObject args, ?_, fun name => ?_, Evaluator.applyClosure_eq hc harity⟩
    · rw [Params.bindings_eq]
      exact Table.nodup_names_foldl_put _ List.nodup_nil
    · rw [Params.bindings_eq, Table.find?_foldl_put, Table.find?, Option.or_none]

/-- No closure is made of what is no pattern. -/
theorem makeClosure_of_not_isPattern {params : Value} (h : ¬ params.IsPattern) (form : Text) (s : Store) :
    ∃ e, ∀ name body scope,
      makeClosure name form params body scope s = .error (.failure (.shape e)) s := by
  obtain ⟨e, he⟩ := Params.exists_parse_eq_error h form
  refine ⟨e, fun name body scope => ?_⟩
  rw [makeClosure, he]
  rfl

/-- A form that makes a closure of what spells the same as a parameter expression, and goes on with it. -/
theorem makesClosure_bind {params formals : Value} (hsame : ∀ p : Params, p.Spells formals ↔ p.Spells params)
    {name : Option Text} {form : Text} {body : List Value} {scope : ScopeId} {s : Store}
    {next : ClosureId → Action Step} {made : Closure → EStateM.Result Signal Store Step}
    (hmade : ∀ c, next s.closures.size (s.withClosure c) = made c) :
    params.MakesClosure name body scope s ((makeClosure name form formals body scope >>= next) s) made where
  accepts h := by
    obtain ⟨p, hp⟩ := Params.isPattern_iff.mp h
    have hparse : Params.parse form formals = .ok p := Params.parse_eq_ok_iff.mpr ((hsame p).mpr hp)
    exact ⟨p, hp.takesApart, (bind_of_ok (Evaluator.makeClosure_eq hparse name body scope)).trans (hmade _)⟩
  rejects h := by
    have hformals : ¬ formals.IsPattern := by
      rw [Params.isPattern_iff] at h ⊢
      exact fun hp => h (hp.imp fun p => (hsame p).mp)
    obtain ⟨e, he⟩ := makeClosure_of_not_isPattern hformals form s
    exact ⟨e, bind_of_error (he name body scope)⟩

/-- Reading accepts patterns only. Procedures take arguments apart as their pattern says, whether they are made
by a parameter expression or by a signature that has it behind a name; a signature without single parameters
leaves its bare ending. -/
theorem procedures_take_arguments_apart (params : Value) (ev : Evaluator) (scope : ScopeId) (s : Store) :
    (∀ form, (∃ p, Params.parse form params = .ok p) ↔ params.IsPattern) ∧
    (∀ form (c : Closure), Params.parse form params = .ok c.params → c.TakesApart params) ∧
    (∀ expr more, params.MakesClosure none (expr :: more) scope s
      (ev.applyStep (.atom (.form .lambda)) (params :: expr :: more) scope s)
      fun c => .ok (.value (.atom (.closure s.closures.size))) (s.withClosure c)) ∧
    (∀ id name expr more, params.MakesClosure (some name) (expr :: more) scope s
      (ev.applyStep (.atom (.form .define)) (.cons id (.sym name) params :: expr :: more) scope s)
      fun c => .ok (.value .void) (s.withProcedure scope c name)) ∧
    (∀ id name expr more, params.MakesClosure (some name) (expr :: more) scope s
      (ev.applyStep (.atom (.form .defineTransformer)) (.cons id (.sym name) params :: expr :: more) scope s)
      fun c => .ok (.value .void) (s.withTransformer scope c name)) ∧
    ∀ form id name, ∃ formals,
      Forms.splitSignature form (.cons id (.sym name) params) = .ok (name, formals) ∧
      formals.items = params.items ∧ formals.ending = params.ending ∧
      (params.isPair = false → formals = params) := by
  have hbody (operand expr : Value) (more : List Value) :
      (Arity.atLeast 2).accepts (operand :: expr :: more).length = true :=
    Evaluator.accepts_body operand (List.cons_ne_nil expr more)
  refine ⟨fun form => ?_, fun form c hc => (Params.parse_eq_ok_iff.mp hc).takesApart, fun expr more => ?_,
    fun id name expr more => ?_, fun id name expr more => ?_, fun form id name => ?_⟩
  · rw [Params.isPattern_iff]
    exact exists_congr fun p => Params.parse_eq_ok_iff
  · rw [Evaluator.applyStep_form (f := .lambda) (hbody _ expr more)]
    exact makesClosure_bind (fun p => Iff.rfl) fun c => rfl
  · rw [Evaluator.applyStep_form (f := .define) (hbody _ expr more)]
    exact makesClosure_bind (fun p => Params.spells_assemble_iff) fun c => rfl
  · rw [Evaluator.applyStep_form (f := .defineTransformer) (hbody _ expr more)]
    exact makesClosure_bind (fun p => Params.spells_assemble_iff) fun c => rfl
  · refine ⟨.assemble id params.items params.ending, rfl, Value.items_assemble id _ _,
      Value.ending_assemble id _ _, fun hpair => ?_⟩
    cases params with
    | atom a => rfl
    | nil => rfl
    | list _ _ _ _ => cases hpair

end Lisplet
