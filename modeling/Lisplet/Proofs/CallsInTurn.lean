import Lisplet.Proofs.EvaluationRules
import Lisplet.Proofs.PreludeCode

/-!
# Calls in turn

A procedure of the prelude that is given a procedure calls it again and again. Between two calls it only makes new
scopes, closures and lists, and it is followed as long as a call returns and binds none of the names anew that the
prelude uses, in the root or in the procedure's own scopes. `InTurn` follows the calls through the stores that they
begin and end in, whatever the calls do, up to the first one that fails or that nothing can be said about.
-/

namespace Lisplet

/-! ### Scopes by themselves -/

namespace Scopes

/-- The transformer of a name in this scope alone. -/
def transformerHere? (scopes : Scopes) (id : ScopeId) (name : Text) : Option ClosureId :=
  scopes[id]?.bind fun scope => scope.transformers.find? name

variable {scopes : Scopes} {id parent : ScopeId} {scope : Scope}

theorem IsTree.lookup_eq (h : scopes.IsTree) (hscope : scopes[id]? = some scope) (hparent : scope.parent = some parent)
    (name : Text) : scopes.lookup? id name = (scopes.here? id name).or (scopes.lookup? parent name) := by
  rw [lookup?, h.search_eq _ hscope, hparent, here?, hscope]
  rfl

theorem IsTree.transformer_eq (h : scopes.IsTree) (hscope : scopes[id]? = some scope)
    (hparent : scope.parent = some parent) (name : Text) :
    scopes.transformer? id name = (scopes.transformerHere? id name).or (scopes.transformer? parent name) := by
  rw [transformer?, h.search_eq _ hscope, hparent, transformerHere?, hscope]
  rfl

theorem IsTree.lookup_root (h : scopes.IsTree) (name : Text) :
    scopes.lookup? rootScope name = scopes.here? rootScope name := by
  obtain ⟨root, hroot, hnone⟩ := h.root
  rw [lookup?, h.search_eq _ hroot, hnone, here?, hroot]
  exact Option.or_none

theorem IsTree.transformer_root (h : scopes.IsTree) (name : Text) :
    scopes.transformer? rootScope name = scopes.transformerHere? rootScope name := by
  obtain ⟨root, hroot, hnone⟩ := h.root
  rw [transformer?, h.search_eq _ hroot, hnone, transformerHere?, hroot]
  exact Option.or_none

/-- New scopes leave what old ones bind. -/
theorem Extends.here_eq {scopes' : Scopes} (h : scopes.Extends scopes') (hid : id < scopes.size) (name : Text) :
    scopes'.here? id name = scopes.here? id name ∧
      scopes'.transformerHere? id name = scopes.transformerHere? id name := by
  obtain ⟨scope, hscope⟩ := exists_scope hid
  rw [here?, here?, transformerHere?, transformerHere?, hscope, h id scope hscope]
  exact ⟨rfl, rfl⟩

end Scopes

/-! ### Preparations -/

/-- What happens to a store between two calls: there are new scopes, closures and lists, and everything else is as
it was. -/
structure Store.Prepares (s s' : Store) : Prop where
  wellFormed : s.WellFormed → s'.WellFormed
  scopes : s.scopes.Extends s'.scopes
  closures : ∀ (c : ClosureId) (proc : Closure), s.closures[c]? = some proc → s'.closures[c]? = some proc
  others : s' = { s with scopes := s'.scopes, closures := s'.closures, nextObject := s'.nextObject }

namespace Store

variable {s s' s'' : Store}

namespace Prepares

theorem refl (s : Store) : s.Prepares s := ⟨id, fun _ _ h => h, fun _ _ h => h, rfl⟩

theorem trans (h : s.Prepares s') (h' : s'.Prepares s'') : s.Prepares s'' where
  wellFormed hs := h'.wellFormed (h.wellFormed hs)
  scopes id scope hscope := h'.scopes id scope (h.scopes id scope hscope)
  closures c proc hc := h'.closures c proc (h.closures c proc hc)
  others := by
    rw [h'.others, h.others]

theorem size_le (h : s.Prepares s') : s.scopes.size ≤ s'.scopes.size := by
  by_contra hlt
  obtain ⟨scope, hscope⟩ := Scopes.exists_scope (Nat.lt_of_not_le hlt)
  exact absurd (Scopes.lt_size (h.scopes _ scope hscope)) (Nat.lt_irrefl _)

/-- What strings hold is not changed. -/
theorem content_eq (h : s.Prepares s') : s'.content = s.content := by
  rw [h.others]
  rfl

theorem withObject (h : s.Prepares s') : s.Prepares s'.withObject :=
  h.trans ⟨(Change.object (s := s')).wellFormed, fun _ _ h => h, fun _ _ h => h, rfl⟩

theorem withScope (h : s.Prepares s') {parent : ScopeId} (hparent : parent < s'.scopes.size) (t : Table Value) :
    s.Prepares (s'.withScope parent t) :=
  h.trans ⟨(Change.scope parent t hparent).wellFormed, Scopes.extends_push _ _, fun _ _ h => h, rfl⟩

/-- A procedure that is defined in a new scope. -/
theorem withProcedure (h : s.Prepares s') {scope : ScopeId} (hnew : s.scopes.size ≤ scope)
    {c : Closure} (hc : c.scope < s'.scopes.size) (name : Text) :
    s.Prepares (s'.withProcedure scope c name) where
  wellFormed hs := (Change.binding scope name _).wellFormed ((Change.closure c hc).wellFormed (h.wellFormed hs))
  scopes id old hold := by
    have hne : scope ≠ id := Nat.ne_of_gt (Nat.lt_of_lt_of_le (Scopes.lt_size hold) hnew)
    show (s'.scopes.define scope name _)[id]? = some old
    rw [Scopes.define, Array.getElem?_modify, if_neg hne]
    exact h.scopes id old hold
  closures c' proc hproc := getElem?_push_of_some (h.closures c' proc hproc) c
  others := by
    show ({ s' with scopes := _, closures := _ } : Store) = _
    rw [h.others]
    rfl

theorem withLoop (h : s.Prepares s') {parent : ScopeId} (hparent : parent < s'.scopes.size) (name : Text)
    (params : Params) (body : Value) : s.Prepares (s'.withLoop parent name params body) := by
  have hscope := (Prepares.refl s').withScope hparent [(name, .atom (.closure s'.closures.size))]
  refine h.trans ⟨fun hs => ?_, hscope.scopes, fun c proc hc => getElem?_push_of_some hc _, rfl⟩
  obtain ⟨htree, hclosures⟩ := hscope.wellFormed hs
  refine ⟨htree, fun c proc hc => ?_⟩
  have hsize : (s'.withLoop parent name params body).scopes.size = s'.scopes.size + 1 := Array.size_push _
  have hpush : (s'.closures.push ⟨some name, params, [body], s'.scopes.size⟩)[c]? = some proc := hc
  rw [hsize]
  rw [Array.getElem?_push] at hpush
  split at hpush
  · obtain rfl := Option.some.inj hpush
    exact Nat.lt_succ_self _
  · exact Nat.lt_succ_of_lt (hs.closures c proc hpush)

end Prepares

/-! ### Names that are kept -/

/-- The names that the procedures of the prelude use are not bound anew, neither in the root nor in scopes of their
own. -/
structure KeepsNames (own : ScopeId → Prop) (s s' : Store) : Prop where
  globals : ∀ name ∈ Prelude.globalNames, s'.scopes.here? rootScope name = s.scopes.here? rootScope name
  bindings : ∀ id, own id → ∀ name ∈ Prelude.usedNames, s'.scopes.here? id name = s.scopes.here? id name
  transformers : ∀ id, id = rootScope ∨ own id → ∀ name ∈ Prelude.usedNames,
    s'.scopes.transformerHere? id name = s.scopes.transformerHere? id name

theorem KeepsNames.withObject (own : ScopeId → Prop) (s : Store) : s.KeepsNames own s.withObject :=
  ⟨fun _ _ => rfl, fun _ _ _ _ => rfl, fun _ _ _ _ => rfl⟩

theorem KnowsNames.of_here (h : s.KnowsNames) (hs : s'.WellFormed)
    (hglobals : ∀ name ∈ Prelude.globalNames, s'.scopes.here? rootScope name = s.scopes.here? rootScope name)
    (htransformers : ∀ name ∈ Prelude.usedNames,
      s'.scopes.transformerHere? rootScope name = s.scopes.transformerHere? rootScope name)
    (hclosures : ∀ (c : ClosureId) (proc : Closure), s.closures[c]? = some proc → s'.closures[c]? = some proc) :
    s'.KnowsNames where
  wellFormed := hs
  builtin name hname := by
    have hglobal : name ∈ Prelude.globalNames := List.mem_append_left _ hname
    rw [hs.scopes.lookup_root, hglobals name hglobal, ← h.wellFormed.scopes.lookup_root]
    exact h.builtin name hname
  shared d hd := by
    obtain ⟨v, hv, c, start, hc, hproc⟩ := h.shared d hd
    have hglobal : d.name ∈ Prelude.globalNames := List.mem_append_right _ (List.mem_map_of_mem hd)
    refine ⟨v, ?_, c, start, hc, hclosures c _ hproc⟩
    rw [hs.scopes.lookup_root, hglobals d.name hglobal, ← h.wellFormed.scopes.lookup_root, hv]
  plain name hname := by
    rw [hs.scopes.transformer_root, htransformers name hname, ← h.wellFormed.scopes.transformer_root]
    exact h.plain name hname

theorem KnowsNames.prepares (h : s.KnowsNames) (h' : s.Prepares s') : s'.KnowsNames :=
  h.of_here (h'.wellFormed h.wellFormed) (fun name _ => (h'.scopes.here_eq h.wellFormed.root_lt name).1)
    (fun name _ => (h'.scopes.here_eq h.wellFormed.root_lt name).2) h'.closures

theorem KnowsNames.keeps {own : ScopeId → Prop} (h : s.KnowsNames) (h' : s.KeepsNames own s')
    (hevolves : s.Evolves s') : s'.KnowsNames :=
  h.of_here (hevolves.wellFormed h.wellFormed) h'.globals (h'.transformers rootScope (.inl rfl))
    fun _ _ => hevolves.closure_stays

/-! ### Scopes inside each other -/

/-- A scope and those around it, up to the root: each one is a procedure's own, a table of names of its own says what
it binds of the names that are used, and it defines no transformer under such a name. -/
inductive Stack (s : Store) (own : ScopeId → Prop) : ScopeId → List (Table Value) → Prop
  | root : Stack s own rootScope []
  | inner {id parent : ScopeId} {scope : Scope} {t : Table Value} {ts : List (Table Value)} (hown : own id)
      (hscope : s.scopes[id]? = some scope) (hparent : scope.parent = some parent)
      (hnames : ∀ name ∈ t.names, name ∈ Prelude.ownNames)
      (hvalues : ∀ name ∈ Prelude.usedNames, s.scopes.here? id name = t.find? name)
      (hplain : ∀ name ∈ Prelude.usedNames, s.scopes.transformerHere? id name = none)
      (h : Stack s own parent ts) : Stack s own id (t :: ts)

/-- What a name means in tables inside each other. -/
def found (name : Text) : List (Table Value) → Option Value
  | [] => none
  | t :: ts => (t.find? name).or (found name ts)

/-- What is found is the name of a variable or a helper. -/
theorem Stack.mem_ownNames {own : ScopeId → Prop} {id : ScopeId} {ts : List (Table Value)} (h : s.Stack own id ts)
    {name : Text} {v : Value} (hfound : found name ts = some v) : name ∈ Prelude.ownNames := by
  induction h with
  | root => exact nomatch hfound
  | @inner _ _ _ t _ _ _ _ hnames _ _ _ ih =>
    cases hfind : t.find? name with
    | some w => exact hnames name (Table.mem_names_of_find? hfind)
    | none =>
      rw [found, hfind] at hfound
      exact ih hfound

namespace Stack

variable {own own' : ScopeId → Prop} {id : ScopeId} {t : Table Value} {ts : List (Table Value)} {name : Text}

theorem lt_size (h : s.Stack own id ts) (hs : s.WellFormed) : id < s.scopes.size := by
  cases h with
  | root => exact hs.root_lt
  | inner _ hscope => exact Scopes.lt_size hscope

theorem lookup_eq (h : s.Stack own id ts) (hs : s.WellFormed) (hname : name ∈ Prelude.usedNames) :
    s.scopes.lookup? id name = (found name ts).or (s.scopes.lookup? rootScope name) := by
  induction h with
  | root => rfl
  | inner _ hscope hparent _ hvalues _ _ ih =>
    rw [hs.scopes.lookup_eq hscope hparent, hvalues name hname, ih, found, Option.or_assoc]

theorem transformer_eq (h : s.Stack own id ts) (hs : s.KnowsNames) (hname : name ∈ Prelude.usedNames) :
    s.scopes.transformer? id name = none := by
  induction h with
  | root => exact hs.plain name hname
  | inner _ hscope hparent _ _ hplain _ ih =>
    rw [hs.wellFormed.scopes.transformer_eq hscope hparent, hplain name hname, ih]
    rfl

/-- A name that is bound in one of the scopes. -/
theorem means (h : s.Stack own id ts) (hs : s.KnowsNames) {v : Value} (hfound : found name ts = some v) :
    s.Means id name v := by
  have hname : name ∈ Prelude.usedNames := List.mem_append_right _ (h.mem_ownNames hfound)
  refine ⟨?_, h.transformer_eq hs hname⟩
  rw [h.lookup_eq hs.wellFormed hname, hfound]
  rfl

/-- A name that is used and not bound in them means what it means in the root. -/
theorem means_global (h : s.Stack own id ts) (hs : s.KnowsNames) {v : Value}
    (hv : s.scopes.lookup? rootScope name = some v) (hname : name ∈ Prelude.globalNames) : s.Means id name v := by
  have hused : name ∈ Prelude.usedNames := List.mem_append_left _ hname
  refine ⟨?_, h.transformer_eq hs hused⟩
  have hfound : found name ts = none :=
    Option.eq_none_iff_forall_ne_some.mpr fun w hw =>
      Prelude.ownNames_disjoint name (h.mem_ownNames hw) hname
  rw [h.lookup_eq hs.wellFormed hused, hfound]
  exact hv

theorem means_form (h : s.Stack own id ts) (hs : s.KnowsNames) (f : SpecialForm)
    (hname : f.name ∈ Prelude.builtinNames) : s.Means id f.name (.atom (.form f)) :=
  h.means_global hs ((hs.builtin _ hname).trans (find?_form f)) (List.mem_append_left _ hname)

theorem means_primitive (h : s.Stack own id ts) (hs : s.KnowsNames) (p : Primitive)
    (hname : p.name ∈ Prelude.builtinNames) : s.Means id p.name (.atom (.primitive p)) :=
  h.means_global hs ((hs.builtin _ hname).trans (find?_primitive p)) (List.mem_append_left _ hname)

theorem mono (h : s.Stack own id ts) (hown : ∀ id < s.scopes.size, own id → own' id) : s.Stack own' id ts := by
  induction h with
  | root => exact .root
  | inner hown' hscope hparent hnames hvalues hplain _ ih =>
    exact .inner (hown _ (Scopes.lt_size hscope) hown') hscope hparent hnames hvalues hplain ih

/-- Stores with the same scopes. -/
theorem congr (h : s.Stack own id ts) (heq : s'.scopes = s.scopes) : s'.Stack own id ts := by
  induction h with
  | root => exact .root
  | inner hown hscope hparent hnames hvalues hplain _ ih =>
    exact .inner hown (heq ▸ hscope) hparent hnames (heq ▸ hvalues) (heq ▸ hplain) ih

theorem prepares (h : s.Stack own id ts) (h' : s.Prepares s') : s'.Stack own id ts := by
  induction h with
  | root => exact .root
  | inner hown hscope hparent hnames hvalues hplain _ ih =>
    have hhere := h'.scopes.here_eq (Scopes.lt_size hscope)
    refine .inner hown (h'.scopes _ _ hscope) hparent hnames (fun name hname => ?_) (fun name hname => ?_) ih
    · rw [(hhere name).1, hvalues name hname]
    · rw [(hhere name).2, hplain name hname]

theorem keeps (h : s.Stack own id ts) (h' : s.KeepsNames own s') (hevolves : s.Evolves s') :
    s'.Stack own id ts := by
  induction h with
  | root => exact .root
  | @inner id _ _ _ _ hown hscope hparent hnames hvalues hplain _ ih =>
    obtain ⟨scope', hscope', hsurvives⟩ := hevolves.survives.scopes _ _ hscope
    refine .inner hown hscope' (hsurvives.parent.trans hparent) hnames (fun name hname => ?_)
      (fun name hname => ?_) ih
    · rw [h'.bindings id hown name hname, hvalues name hname]
    · rw [h'.transformers id (.inr hown) name hname, hplain name hname]

/-- A new scope inside the innermost one. -/
theorem withScope (h : s.Stack own id ts) (hs : s.WellFormed) (hown : own s.scopes.size)
    (hnames : ∀ name ∈ t.names, name ∈ Prelude.ownNames) :
    (s.withScope id t).Stack own s.scopes.size (t :: ts) := by
  have hget : (s.withScope id t).scopes[s.scopes.size]? = some ⟨t, [], some id⟩ := Array.getElem?_push_size
  refine .inner hown hget rfl hnames (fun name _ => ?_) (fun name _ => ?_)
    (h.prepares ((Prepares.refl s).withScope (h.lt_size hs) t))
  · rw [Scopes.here?, hget]
    rfl
  · rw [Scopes.transformerHere?, hget]
    rfl

/-- A definition in a scope that is not among them. -/
theorem withProcedure_of_lt {inner : ScopeId} (h : s.Stack own id ts) (hs : s.WellFormed) (hlt : id < inner)
    (c : Closure) (x : Text) : (s.withProcedure inner c x).Stack own id ts := by
  induction h with
  | root => exact .root
  | @inner id parent scope t ts hown hscope hparent hnames hvalues hplain _ ih =>
    have hget : (s.withProcedure inner c x).scopes[id]? = s.scopes[id]? := by
      show (s.scopes.define inner x _)[id]? = _
      rw [Scopes.define, Array.getElem?_modify, if_neg (Nat.ne_of_gt hlt)]
    refine .inner hown (hget.trans hscope) hparent hnames (fun name hname => ?_) (fun name hname => ?_)
      (ih (Nat.lt_trans (hs.scopes.lt_of_parent hscope hparent) hlt))
    · rw [Scopes.here?, hget]
      exact hvalues name hname
    · rw [Scopes.transformerHere?, hget]
      exact hplain name hname

/-- A definition of a helper in the innermost scope. -/
theorem withProcedure (h : s.Stack own id (t :: ts)) (hs : s.WellFormed) (c : Closure) {x : Text}
    (hx : x ∈ Prelude.ownNames) :
    (s.withProcedure id c x).Stack own id (t.put x (.atom (.closure s.closures.size)) :: ts) := by
  cases h with
  | @inner _ parent scope _ _ hown hscope hparent hnames hvalues hplain hstack =>
    have hget := Scopes.getElem?_define_self hscope x (.atom (.closure s.closures.size))
    refine .inner hown hget hparent (fun name hname => ?_) (fun name hname => ?_) (fun name hname => ?_)
      (hstack.withProcedure_of_lt hs (hs.scopes.lt_of_parent hscope hparent) c x)
    · rw [Table.names_put] at hname
      split at hname
      · exact hnames name hname
      · rcases List.mem_append.mp hname with hname | hname
        · exact hnames name hname
        · exact List.mem_singleton.mp hname ▸ hx
    · have hvalue := hvalues name hname
      rw [Scopes.here?, hscope] at hvalue
      have hold : scope.bindings.find? name = t.find? name := hvalue
      show (Scopes.define s.scopes id x _)[id]?.bind _ = _
      rw [hget, Table.find?_put_eq, ← hold]
      exact Table.find?_put_eq x name _ _
    · have hnone := hplain name hname
      rw [Scopes.transformerHere?, hscope] at hnone
      show (Scopes.define s.scopes id x _)[id]?.bind _ = _
      rw [hget]
      exact hnone

end Stack

end Store

/-! ### Calls in turn -/

/-- What comes of calls that are made in turn. -/
inductive Turns where
  /-- Every call returned. -/
  | returned (results : List Value) (s : Store)
  /-- A call failed, and there was none after it. -/
  | failed (e : Signal) (s : Store)
  /-- A call ran into a bound, or it bound a name anew that the prelude uses. -/
  | strayed

namespace Turns

/-- What comes of the turns behind a call that returned. -/
def after (v : Value) : Turns → Turns
  | .returned results s => .returned (v :: results) s
  | turns => turns

/-- Every call returned, and a value is made of the results. -/
def Returned (turns : Turns) (made : List Value → Value → Prop) (v : Value) (s : Store) : Prop :=
  ∃ results, turns = .returned results s ∧ made results v

/-- A call failed. -/
def Failed (turns : Turns) (e : Signal) (s : Store) : Prop := turns = .failed e s

theorem Returned.after {turns : Turns} {made : List Value → Value → Prop} {v w : Value} {s : Store}
    (h : turns.Returned (fun results => made (v :: results)) w s) : (turns.after v).Returned made w s := by
  obtain ⟨results, rfl, hmade⟩ := h
  exact ⟨v :: results, rfl, hmade⟩

theorem Failed.after {turns : Turns} {e : Signal} {s : Store} (h : turns.Failed e s) (v : Value) :
    (turns.after v).Failed e s := by
  obtain rfl := h
  rfl

end Turns

/-- The scopes of a procedure's own when there are new ones. -/
def withNew (own : ScopeId → Prop) (s s' : Store) (id : ScopeId) : Prop :=
  own id ∨ (s.scopes.size ≤ id ∧ id < s'.scopes.size)

namespace Store

variable {s s' s'' : Store} {own : ScopeId → Prop} {id : ScopeId} {t : Table Value} {ts : List (Table Value)}

theorem Stack.isOwn (h : s.Stack own id (t :: ts)) : own id := by
  cases h with
  | inner hown => exact hown

/-- Scopes after more preparations. -/
theorem Stack.later (h : s'.Stack (withNew own s s') id ts) (h' : s'.Prepares s'') :
    s''.Stack (withNew own s s'') id ts :=
  (h.prepares h').mono fun _ _ hown => hown.imp_right fun hnew => ⟨hnew.1, Nat.lt_of_lt_of_le hnew.2 h'.size_le⟩

/-- A new scope among the preparations. -/
theorem Stack.enter (h : s'.Stack (withNew own s s') id ts) (hprepares : s.Prepares s') (hs : s'.WellFormed)
    (t : Table Value) (hnames : ∀ name ∈ t.names, name ∈ Prelude.ownNames) :
    (s'.withScope id t).Stack (withNew own s (s'.withScope id t)) s'.scopes.size (t :: ts) := by
  have hsize : (s'.withScope id t).scopes.size = s'.scopes.size + 1 := Array.size_push _
  refine (h.mono fun _ _ hown => ?_).withScope hs ?_ hnames
  · exact hown.imp_right fun hnew => ⟨hnew.1, hsize ▸ Nat.lt_succ_of_lt hnew.2⟩
  · exact .inr ⟨hprepares.size_le, hsize ▸ Nat.lt_succ_self _⟩

/-- Scopes at the beginning of the next turn. -/
theorem Stack.turn (h : s.Stack own id ts) : s.Stack (withNew own s s) id ts := h.mono fun _ _ => .inl

end Store

/-- A call that ran into a bound or bound a name anew. -/
def Strays (own : ScopeId → Prop) (s : Store) : EStateM.Result Signal Store Value → Prop
  | .ok _ s' => ¬ s.KeepsNames own s'
  | .error e _ => e.IsBound

/-- A call leaves what it must. -/
theorem Evaluator.evolves_of_call {rounds nesting depth : Nat} {f v : Value} {args : List Value} {scope : ScopeId}
    {s s' : Store} (hs : s.WellFormed) (hscope : scope < s.scopes.size)
    (hcall : (nested rounds nesting depth).call f args scope s = .ok v s') : s.Evolves s' := by
  have h := (((nested_evolving rounds nesting depth).call hscope f args) hs).1
  rwa [Action.after_of_ok hcall] at h

/-- Calls of a procedure in turn, each with arguments that may depend on the result before, in one of the scopes
that the caller has made; between the calls there are only preparations. -/
inductive InTurn (ev : Evaluator) (f : Value) :
    (ScopeId → Prop) → Value → Store → List (Value → List Value) → Turns → Prop
  | done {own : ScopeId → Prop} {last : Value} {s s' : Store} (h : s.Prepares s') :
      InTurn ev f own last s [] (.returned [] s')
  | returns {own : ScopeId → Prop} {last v : Value} {s s₁ s₂ : Store} {scope : ScopeId}
      {args : Value → List Value} {plan : List (Value → List Value)} {turns : Turns} (h : s.Prepares s₁)
      (hscope : withNew own s s₁ scope) (hcall : ev.call f (args last) scope s₁ = .ok v s₂)
      (hkeeps : s₁.KeepsNames (withNew own s s₁) s₂) (hmore : InTurn ev f (withNew own s s₁) v s₂ plan turns) :
      InTurn ev f own last s (args :: plan) (turns.after v)
  | fails {own : ScopeId → Prop} {last : Value} {s s₁ s₂ : Store} {scope : ScopeId} {args : Value → List Value}
      {plan : List (Value → List Value)} {e : Signal} (h : s.Prepares s₁) (hscope : withNew own s s₁ scope)
      (hcall : ev.call f (args last) scope s₁ = .error e s₂) (he : ¬ e.IsBound) :
      InTurn ev f own last s (args :: plan) (.failed e s₂)
  | strays {own : ScopeId → Prop} {last : Value} {s s₁ : Store} {scope : ScopeId} {args : Value → List Value}
      {plan : List (Value → List Value)} (h : s.Prepares s₁) (hscope : withNew own s s₁ scope)
      (hcall : Strays (withNew own s s₁) s₁ (ev.call f (args last) scope s₁)) :
      InTurn ev f own last s (args :: plan) .strayed

namespace InTurn

variable {ev : Evaluator} {f : Value} {own : ScopeId → Prop} {last : Value} {s s₁ : Store} {scope : ScopeId}
  {args : Value → List Value} {plan : List (Value → List Value)}

/-- A failure is not that of a bound. -/
theorem not_isBound {turns : Turns} (h : InTurn ev f own last s plan turns) {e : Signal} {s' : Store}
    (hfailed : turns.Failed e s') : ¬ e.IsBound := by
  induction h with
  | done => exact nomatch hfailed
  | @returns _ _ _ _ _ _ _ _ _ turns _ _ _ _ _ ih =>
    cases turns with
    | returned => exact nomatch hfailed
    | failed e' s'' => exact ih hfailed
    | strayed => exact nomatch hfailed
  | fails _ _ _ he =>
    cases hfailed
    exact he
  | strays => exact nomatch hfailed

/-- One call, and what comes of those behind it when it returns and keeps the names. The code around the call is told
with the outcome that the call has wherever there is as much room. -/
theorem exists_turn (rest : Turns → Value → Store → Prop) {rounds nesting level : Nat} (hprepares : s.Prepares s₁)
    (hnames : s₁.KnowsNames) (hscope : withNew own s s₁ scope) (hlt : scope < s₁.scopes.size)
    (hmore : ∀ v s₂, s₂.KnowsNames → s₁.Evolves s₂ → s₁.KeepsNames (withNew own s s₁) s₂ →
      ∃ turns, InTurn (.nested rounds nesting (level + 1)) f (withNew own s s₁) v s₂ plan turns ∧
        (turns = .strayed ∨ rest turns v s₂))
    {whole : Turns → Prop}
    (hwhole : ∀ turns : Turns, (∀ depth depth', level ≤ depth → level ≤ depth' →
      LeadsTo (fun rounds => (Evaluator.nested rounds nesting depth).applyStep f (args last) scope) s₁
        (Evaluator.Onward nesting depth' (fun v s₂ => s₂.KnowsNames ∧ s₁.Evolves s₂ ∧
          s₁.KeepsNames (withNew own s s₁) s₂ ∧ ∃ turns', turns = turns'.after v ∧ rest turns' v s₂)
          turns.Failed) turns.Failed) → whole turns) :
    ∃ turns, InTurn (.nested rounds nesting (level + 1)) f own last s (args :: plan) turns ∧
      (turns = .strayed ∨ whole turns) := by
  cases hcall : (Evaluator.nested rounds nesting (level + 1)).call f (args last) scope s₁ with
  | error e s₂ =>
    by_cases he : e.IsBound
    · exact ⟨.strayed, .strays hprepares hscope (hcall ▸ he), .inl rfl⟩
    · refine ⟨.failed e s₂, .fails hprepares hscope hcall he, .inr ?_⟩
      refine hwhole _ fun depth depth' hdepth hdepth' => ?_
      exact Evaluator.applyStep_leads hcall he rfl hdepth hdepth'
  | ok v s₂ =>
    by_cases hkeeps : s₁.KeepsNames (withNew own s s₁) s₂
    · have hevolves := Evaluator.evolves_of_call hnames.wellFormed hlt hcall
      have hnames₂ := hnames.keeps hkeeps hevolves
      obtain ⟨turns, hturns, hrest⟩ := hmore v s₂ hnames₂ hevolves hkeeps
      refine ⟨turns.after v, .returns hprepares hscope hcall hkeeps hturns, ?_⟩
      rcases hrest with rfl | hrest
      · exact .inl rfl
      · refine .inr (hwhole _ fun depth depth' hdepth hdepth' => ?_)
        exact Evaluator.applyStep_leads hcall id ⟨hnames₂, hevolves, hkeeps, turns, rfl, hrest⟩ hdepth hdepth'
    · refine ⟨.strayed, .strays hprepares hscope ?_, .inl rfl⟩
      rw [hcall]
      exact hkeeps

end InTurn

/-- New scopes after new scopes. -/
theorem withNew_withNew {own : ScopeId → Prop} {s s₁ s₂ : Store} (h : s.Prepares s₁) (h' : s₁.Prepares s₂) :
    withNew (withNew own s s₁) s₁ s₂ = withNew own s s₂ := by
  have hsize := h.size_le
  have hsize' := h'.size_le
  funext id
  apply propext
  unfold withNew
  constructor
  · rintro ((hown | hnew) | hnew)
    · exact .inl hown
    · exact .inr ⟨hnew.1, Nat.lt_of_lt_of_le hnew.2 hsize'⟩
    · exact .inr ⟨Nat.le_trans hsize hnew.1, hnew.2⟩
  · rintro (hown | hnew)
    · exact .inl (.inl hown)
    · rcases Nat.lt_or_ge id s₁.scopes.size with hlt | hge
      · exact .inl (.inr ⟨hnew.1, hlt⟩)
      · exact .inr ⟨hge, hnew.2⟩

namespace InTurn

/-- Preparations before the first turn are a part of it. -/
theorem of_prepares {ev : Evaluator} {f : Value} {own : ScopeId → Prop} {last : Value} {s s₁ : Store}
    {plan : List (Value → List Value)} {turns : Turns} (hprepares : s.Prepares s₁)
    (h : InTurn ev f (withNew own s s₁) last s₁ plan turns) : InTurn ev f own last s plan turns := by
  cases h with
  | done h => exact .done (hprepares.trans h)
  | returns h hscope hcall hkeeps hmore =>
    rw [withNew_withNew hprepares h] at hscope hkeeps hmore
    exact .returns (hprepares.trans h) hscope hcall hkeeps hmore
  | fails h hscope hcall he =>
    rw [withNew_withNew hprepares h] at hscope
    exact .fails (hprepares.trans h) hscope hcall he
  | strays h hscope hcall =>
    rw [withNew_withNew hprepares h] at hscope hcall
    exact .strays (hprepares.trans h) hscope hcall

/-- After turns that all returned, the names mean what they did, and so do the scopes around. -/
theorem keeps_of_returned {rounds nesting level : Nat} {f : Value} {own : ScopeId → Prop} {last : Value} {s s' : Store}
    {plan : List (Value → List Value)} {turns : Turns} {results : List Value}
    (h : InTurn (.nested rounds nesting (level + 1)) f own last s plan turns) (hturns : turns = .returned results s')
    (hs : s.KnowsNames) (hown : ∀ id, own id → id < s.scopes.size) :
    s'.KnowsNames ∧ ∀ id ts, s.Stack own id ts → s'.Stack (fun _ => True) id ts := by
  induction h generalizing results with
  | done h =>
    cases hturns
    exact ⟨hs.prepares h, fun id ts hstack => (hstack.prepares h).mono fun _ _ _ => trivial⟩
  | @returns own last v s s₁ s₂ scope args plan turns h hscope hcall hkeeps hmore ih =>
    -- Scopes of the procedure are old or were prepared, and are there either way.
    have hlt : ∀ id, withNew own s s₁ id → id < s₁.scopes.size := by
      rintro id (hold | hnew)
      · exact Nat.lt_of_lt_of_le (hown id hold) h.size_le
      · exact hnew.2
    have hs₁ := hs.prepares h
    have hevolves := Evaluator.evolves_of_call hs₁.wellFormed (hlt scope hscope) hcall
    cases turns with
    | returned results' s'' =>
      cases hturns
      obtain ⟨hs', hstacks⟩ := ih rfl (hs₁.keeps hkeeps hevolves)
        fun id hid => Nat.lt_of_lt_of_le (hlt id hid) hevolves.size_le
      refine ⟨hs', fun id ts hstack => hstacks id ts ?_⟩
      exact ((hstack.prepares h).mono fun _ _ => .inl).keeps hkeeps hevolves
    | failed => exact nomatch hturns
    | strayed => exact nomatch hturns
  | fails => exact nomatch hturns
  | strays => exact nomatch hturns

end InTurn

/-! ### Procedures of the prelude are entered -/

/-- A new scope for the variables of a procedure, inside the one that it was made in. -/
abbrev Store.entering (s : Store) (home : ScopeId) (t : Table Value) : Store := s.withObject.withScope home t

theorem Store.Stack.entering {s s' : Store} {own : ScopeId → Prop} {home : ScopeId} {ts : List (Table Value)}
    (h : s'.Stack (withNew own s s') home ts) (hprepares : s.Prepares s') (hs : s'.KnowsNames) {t : Table Value}
    (hnames : ∀ name ∈ t.names, name ∈ Prelude.ownNames) :
    s.Prepares (s'.entering home t) ∧ (s'.entering home t).KnowsNames ∧
      (s'.entering home t).Stack (withNew own s (s'.entering home t)) s'.scopes.size (t :: ts) := by
  have hobject := (Store.Prepares.refl s').withObject
  have hs₁ := hs.prepares hobject
  have h₁ := h.later hobject
  have hscope := hobject.withScope (h₁.lt_size hs₁.wellFormed) t
  exact ⟨hprepares.trans hscope, hs.prepares hscope, h₁.enter hprepares.withObject hs₁.wellFormed t hnames⟩

/-- A helper that is defined in a new scope. -/
theorem Store.Stack.defining {s s' : Store} {own : ScopeId → Prop} {home : ScopeId} {t : Table Value}
    {ts : List (Table Value)} (h : s'.Stack (withNew own s s') home (t :: ts)) (hprepares : s.Prepares s')
    (hs : s.KnowsNames) (hnew : s.scopes.size ≤ home) {c : Closure} (hc : c.scope = home) {x : Text}
    (hx : x ∈ Prelude.ownNames) :
    s.Prepares (s'.withProcedure home c x) ∧ (s'.withProcedure home c x).KnowsNames ∧
      (s'.withProcedure home c x).Stack (withNew own s (s'.withProcedure home c x)) home
        (t.put x (.atom (.closure s'.closures.size)) :: ts) := by
  have hs' := hprepares.wellFormed hs.wellFormed
  have hprepares' := hprepares.withProcedure hnew (c := c) (hc ▸ h.lt_size hs') x
  have hsize : (s'.withProcedure home c x).scopes.size = s'.scopes.size := Array.size_modify
  refine ⟨hprepares', hs.prepares hprepares', (h.withProcedure hs' c hx).mono fun _ _ hown => ?_⟩
  rwa [withNew, hsize]

/-- The scope of a procedure that was made in the root. -/
theorem Store.KnowsNames.entering {s s' : Store} (hs : s'.KnowsNames) (hprepares : s.Prepares s')
    (own : ScopeId → Prop) {t : Table Value} (hnames : ∀ name ∈ t.names, name ∈ Prelude.ownNames) :
    s.Prepares (s'.entering rootScope t) ∧ (s'.entering rootScope t).KnowsNames ∧
      (s'.entering rootScope t).Stack (withNew own s (s'.entering rootScope t)) s'.scopes.size [t] :=
  Store.Stack.root.entering hprepares hs hnames

/-- A procedure of one expression that is applied goes on with it in a new scope. -/
theorem Evaluator.definition_leads {d : Definition} {body : Datum} (hbody : d.body = [body]) {s : Store} {c : ClosureId}
    {start : ObjectId} {home : ScopeId} (hc : s.closures[c]? = some (d.closure start home)) {args : List Value}
    (harity : d.params.arity.accepts args.length = true) {nesting depth : Nat} {scope : ScopeId}
    {post : Value → Store → Prop} {failing : Signal → Store → Prop}
    (h : Comes nesting depth (body.code start) s.scopes.size (s.entering home (d.params.bindings s.nextObject args)) post
      failing) :
    LeadsTo (fun rounds => (nested rounds nesting depth).applyStep (.atom (.closure c)) args scope) s
      (Onward nesting depth post failing) failing := by
  have hcode : (d.closure start home).body = [body.code start] := by
    rw [Definition.closure, hbody]
    rfl
  refine applyClosure_leads hc harity ?_
  rw [hcode]
  exact sequence_last_leads h

/-! ### The outcome of a whole call -/

/-- What comes of calls in turn decides the outcome of a run, from some number of rounds on: the run has a value made of
the results if all calls return, and fails as a call fails. -/
def Turns.Decide (turns : Turns) (made : List Value → Value → Prop) (run : Nat → Action Value) (s : Store) : Prop :=
  match turns with
  | .returned results s' => ∃ v, made results v ∧ ∃ least, ∀ rounds ≥ least, run rounds s = .ok v s'
  | .failed e s' => ∃ least, ∀ rounds ≥ least, run rounds s = .error e s'
  | .strayed => True

namespace Evaluator

/-- A call, with all the room that there may be besides. -/
theorem call_leads {nesting depth depth' : Nat} (hdepth : depth < depth') {proc : Value} {args : List Value}
    {scope : ScopeId} {s : Store} {post : Value → Store → Prop} {failing : Signal → Store → Prop}
    (hfailing : ∀ e s, failing e s → ¬ e.IsBound)
    (h : LeadsTo (fun rounds => (nested rounds nesting depth).applyStep proc args scope) s
      (Onward nesting depth post failing) failing) :
    LeadsTo (fun rounds => (nested rounds nesting depth').call proc args scope) s post failing := by
  have hinside : LeadsTo (fun rounds => (nested rounds nesting (depth + 1)).apply proc args scope >>=
      (nested rounds nesting (depth + 1)).finish) s post failing := by
    refine .bind (h.mono fun next s' hnext => ?_)
    cases next with
    | value v => exact .pure hnext
    | tailCall expr scope => exact Comes.eval hnext
  obtain ⟨least, out, hout, heq⟩ := hinside
  -- Neither a value nor a failure of this kind is a bound, so more room does not change the outcome.
  have hroom : ¬ Action.EndsIn Signal.IsBound out := by
    cases out with
    | ok => exact id
    | error e s' => exact hfailing e s' hout
  refine ⟨least, out, hout, fun rounds hrounds => ?_⟩
  have hcall : (nested rounds nesting (depth + 1)).call proc args scope s = out := by
    rcases Action.limited_cases ((nested rounds nesting (depth + 1)).apply proc args scope >>=
      (nested rounds nesting (depth + 1)).finish) s with hlimited | ⟨s', hdeep, _⟩
    · exact hlimited.trans (heq rounds hrounds)
    · obtain rfl := hdeep.symm.trans (heq rounds hrounds)
      exact absurd (.inr (.inl rfl)) hroom
  have hmore := (nested_below_more (Nat.le_refl rounds) nesting hdepth).call proc args scope s
  rw [hcall] at hmore
  exact hmore.resolve_left hroom

end Evaluator

/-- Calls in turn decide the outcome of the procedure that makes them. -/
theorem InTurn.decide {ev : Evaluator} {f : Value} {own : ScopeId → Prop} {last : Value} {s : Store}
    {plan : List (Value → List Value)} {turns : Turns} (h : InTurn ev f own last s plan turns)
    {nesting depth depth' : Nat} (hdepth : depth < depth') {proc : Value} {args : List Value} {scope : ScopeId}
    {made : List Value → Value → Prop} (hrun : turns = .strayed ∨
      LeadsTo (fun rounds => (Evaluator.nested rounds nesting depth).applyStep proc args scope) s
        (Evaluator.Onward nesting depth (turns.Returned made) turns.Failed) turns.Failed) :
    turns.Decide made (fun rounds => (Evaluator.nested rounds nesting depth').call proc args scope) s := by
  rcases hrun with rfl | hrun
  · trivial
  obtain ⟨least, out, hout, heq⟩ := Evaluator.call_leads hdepth (fun _ _ he => h.not_isBound he) hrun
  cases out with
  | ok v s' =>
    obtain ⟨results, rfl, hmade⟩ := hout
    exact ⟨v, hmade, least, heq⟩
  | error e s' =>
    obtain rfl := hout
    exact ⟨least, heq⟩

/-- A procedure that is applied to the values of its operands. -/
def Value.isFunction : Value → Bool
  | .atom (.primitive _) | .atom (.closure _) => true
  | _ => false

theorem Value.exists_of_isFunction {f : Value} (h : f.isFunction = true) :
    ∃ a, f = .atom a ∧ a.kind = .procedure ∧ ∀ form, a ≠ .form form := by
  cases f with
  | atom a =>
    cases a with
    | primitive | closure => exact ⟨_, rfl, rfl, by simp⟩
    | _ => exact nomatch h
  | nil | list => exact nomatch h

namespace Store

/-- A procedure of the prelude calls another one in turn, and what comes of these calls decides what it comes to
itself: besides the calls it needs so many levels of nested evaluation, and so many more than each of them. -/
def CallsInTurn (s : Store) (d : Definition) (f : Value) (args : List Value) (last : Value)
    (plan : List (Value → List Value)) (made : List Value → Value → Prop) (levels more : Nat) : Prop :=
  ∃ proc, s.scopes.lookup? rootScope d.name = some proc ∧
    ∀ rounds nesting level depth scope, levels ≤ depth → level + more ≤ depth →
      ∃ turns, InTurn (.nested rounds nesting (level + 1)) f (fun _ => False) last s plan turns ∧
        turns.Decide made (fun rounds => (Evaluator.nested rounds nesting depth).call proc args scope) s

/-- A procedure of the prelude comes to a value, with so many levels of nested evaluation. -/
def ComesTo (s : Store) (d : Definition) (args : List Value) (good : Value → Prop) (levels : Nat) : Prop :=
  ∃ proc, s.scopes.lookup? rootScope d.name = some proc ∧
    ∀ nesting depth scope, levels ≤ depth → ∃ v s', good v ∧ ∃ least, ∀ rounds ≥ least,
      (Evaluator.nested rounds nesting depth).call proc args scope s = .ok v s'

variable {s : Store} {d : Definition} {args : List Value}

/-- The outcome of the calls decides that of the whole as soon as it leads the body of the procedure. -/
theorem HasPrelude.callsInTurn (hs : s.HasPrelude) (hd : d ∈ Prelude.definitions) {f last : Value}
    {plan : List (Value → List Value)} {made : List Value → Value → Prop} {levels more : Nat}
    (h : ∀ (rounds nesting level depth : Nat) (c : ClosureId) (start : ObjectId) (scope : ScopeId),
      level + more ≤ depth + (levels + 1) → s.closures[c]? = some (d.closure start rootScope) →
      ∃ turns, InTurn (.nested rounds nesting (level + 1)) f (fun _ => False) last s plan turns ∧
        (turns = .strayed ∨ LeadsTo (fun rounds =>
          (Evaluator.nested rounds nesting (depth + levels)).applyStep (.atom (.closure c)) args scope) s
            (Evaluator.Onward nesting (depth + levels) (turns.Returned made) turns.Failed) turns.Failed)) :
    s.CallsInTurn d f args last plan made (levels + 1) more := by
  obtain ⟨_, hv, c, start, rfl, hc⟩ := hs.procedures d hd
  refine ⟨_, hv, fun rounds nesting level depth scope hlevels hmore => ?_⟩
  obtain ⟨room, rfl⟩ := Nat.exists_eq_add_of_le' hlevels
  obtain ⟨turns, hturns, hrun⟩ := h rounds nesting level room c start scope hmore hc
  exact ⟨turns, hturns, hturns.decide (Nat.lt_succ_self _) hrun⟩

end Store

end Lisplet
