import Lisplet.Proofs.Survival

/-!
# What names mean in a scope

An environment says what names mean, as values and as transformers; it is all that evaluation sees of the
scopes around it. A new scope hides names of the environment around it, and scopes that are added later
change nothing. An environment is usual when whatever is bound from the start still means what it meant
then, so that special forms and primitive procedures can be called by their names.
-/

namespace Lisplet

/-- The number whose digits are the code points of a text. -/
def Text.key (t : Text) : Nat := t.foldl (fun n c => 0x110000 * n + c.val) 0

theorem initialBindings_names_nodup : initialBindings.names.Nodup := by
  -- Numbers are much quicker to compare than texts are.
  have hkeys : (initialBindings.names.map Text.key).Nodup := by decide +kernel
  exact List.Pairwise.of_map Text.key (fun _ _ hne he => hne (congrArg Text.key he)) hkeys

/-- A special form is found under its name. -/
theorem find?_form (f : SpecialForm) : initialBindings.find? f.name = some (.atom (.form f)) :=
  Table.find?_of_mem initialBindings_names_nodup
    (List.mem_append_left _ (List.mem_map.mpr ⟨f, SpecialForm.mem_all f, rfl⟩))

/-- A primitive procedure is found under its name. -/
theorem find?_primitive (p : Primitive) :
    initialBindings.find? p.name = some (.atom (.primitive p)) :=
  Table.find?_of_mem initialBindings_names_nodup
    (List.mem_append_right _ (List.mem_map.mpr ⟨p, Primitive.mem_all p, rfl⟩))

/-! ### Environments -/

/-- What names mean, as values and as transformers. -/
structure Env where
  value : Text → Option Value
  transformer : Text → Option ClosureId

namespace Env

/-- What is bound from the start. -/
def initial : Env := ⟨fun name => initialBindings.find? name, fun _ => none⟩

/-- The environment in a new scope: what is bound there hides what is around it. -/
def bind (env : Env) (t : Table Value) : Env :=
  { env with value := fun name => (t.find? name).or (env.value name) }

/-- The environment after one name has got a value. -/
def define (env : Env) (name : Text) (v : Value) : Env :=
  { env with value := fun other => if other = name then some v else env.value other }

/-- The environment after a transformer has been defined. -/
def defineTransformer (env : Env) (name : Text) (c : ClosureId) : Env :=
  { env with transformer := fun other => if other = name then some c else env.transformer other }

/-- Whatever is bound from the start means what it meant then. -/
def IsUsual (env : Env) : Prop :=
  ∀ name v, initialBindings.find? name = some v → env.value name = some v ∧ env.transformer name = none

theorem initial_isUsual : initial.IsUsual := fun _ _ h => ⟨h, rfl⟩

theorem value_define_self (env : Env) (name : Text) (v : Value) :
    (env.define name v).value name = some v := if_pos rfl

theorem transformer_defineTransformer_self (env : Env) (name : Text) (c : ClosureId) :
    (env.defineTransformer name c).transformer name = some c := if_pos rfl

theorem value_bind_of_find? {t : Table Value} {name : Text} {v : Value} (h : t.find? name = some v)
    (env : Env) : (env.bind t).value name = some v := by
  show (t.find? name).or (env.value name) = some v
  rw [h, Option.some_or]

theorem value_bind_of_not_mem {t : Table Value} {name : Text} (h : name ∉ t.names) (env : Env) :
    (env.bind t).value name = env.value name := by
  have hnone : t.find? name = none :=
    Option.eq_none_iff_forall_ne_some.mpr fun v hv => h (Table.mem_names_of_find? hv)
  show (t.find? name).or (env.value name) = env.value name
  rw [hnone, Option.none_or]

/-- New names leave an environment usual. -/
theorem IsUsual.bind {env : Env} (h : env.IsUsual) {t : Table Value}
    (hnew : ∀ name ∈ t.names, initialBindings.find? name = none) : (env.bind t).IsUsual := by
  intro name v hv
  have hmem : name ∉ t.names := fun hmem => Option.some_ne_none v (hv.symm.trans (hnew name hmem))
  rw [value_bind_of_not_mem hmem]
  exact h name v hv

/-- In a scope of one name, the name means what it is bound to. -/
theorem value_bind_self (env : Env) (name : Text) (v : Value) :
    (env.bind [(name, v)]).value name = some v := value_bind_of_find? (Table.find?_cons_self _ _ _) env

/-- In a scope of one name, other names mean what they mean around it. -/
theorem value_bind_of_ne {name other : Text} (h : other ≠ name) (v : Value) (env : Env) :
    (env.bind [(name, v)]).value other = env.value other :=
  value_bind_of_not_mem (fun hmem => h (List.mem_singleton.mp hmem)) env

theorem IsUsual.bind_one {env : Env} (h : env.IsUsual) {name : Text}
    (hnew : initialBindings.find? name = none) (v : Value) : (env.bind [(name, v)]).IsUsual :=
  h.bind fun _ hname => List.mem_singleton.mp hname ▸ hnew

theorem IsUsual.define {env : Env} (h : env.IsUsual) {name : Text}
    (hnew : initialBindings.find? name = none) (v : Value) : (env.define name v).IsUsual := by
  intro other w hw
  have hne : other ≠ name := fun he => Option.some_ne_none w (hw.symm.trans (he ▸ hnew))
  exact ⟨(if_neg hne).trans (h other w hw).1, (h other w hw).2⟩

theorem IsUsual.defineTransformer {env : Env} (h : env.IsUsual) {name : Text}
    (hnew : initialBindings.find? name = none) (c : ClosureId) :
    (env.defineTransformer name c).IsUsual := by
  intro other w hw
  have hne : other ≠ name := fun he => Option.some_ne_none w (hw.symm.trans (he ▸ hnew))
  exact ⟨(h other w hw).1, (if_neg hne).trans (h other w hw).2⟩

theorem IsUsual.form {env : Env} (h : env.IsUsual) (f : SpecialForm) :
    env.value f.name = some (.atom (.form f)) ∧ env.transformer f.name = none :=
  h _ _ (find?_form f)

theorem IsUsual.primitive {env : Env} (h : env.IsUsual) (p : Primitive) :
    env.value p.name = some (.atom (.primitive p)) ∧ env.transformer p.name = none :=
  h _ _ (find?_primitive p)

/-- Two environments differ in the meaning of these names at most. -/
def AgreesOutside (env : Env) (names : List Text) (env' : Env) : Prop :=
  ∀ name ∉ names, env'.value name = env.value name ∧ env'.transformer name = env.transformer name

theorem AgreesOutside.trans {names : List Text} {env env' env'' : Env} (h : env.AgreesOutside names env')
    (h' : env'.AgreesOutside names env'') : env.AgreesOutside names env'' :=
  fun name hname => ⟨(h' name hname).1.trans (h name hname).1, (h' name hname).2.trans (h name hname).2⟩

theorem agreesOutside_define {names : List Text} {name : Text} (h : name ∈ names) (env : Env) (v : Value) :
    env.AgreesOutside names (env.define name v) := by
  intro other hother
  have hne : other ≠ name := fun he => hother (he ▸ h)
  exact ⟨if_neg hne, rfl⟩

theorem agreesOutside_defineTransformer {names : List Text} {name : Text} (h : name ∈ names) (env : Env)
    (c : ClosureId) : env.AgreesOutside names (env.defineTransformer name c) := by
  intro other hother
  have hne : other ≠ name := fun he => hother (he ▸ h)
  exact ⟨rfl, if_neg hne⟩

end Env

/-! ### What scopes see -/

namespace Scopes

/-- In one scope of a tree of scopes, names mean what an environment says. -/
structure Sees (scopes : Scopes) (id : ScopeId) (env : Env) : Prop where
  tree : scopes.IsTree
  lt_size : id < scopes.size
  value : ∀ name, scopes.lookup? id name = env.value name
  transformer : ∀ name, scopes.transformer? id name = env.transformer name

variable {scopes scopes' : Scopes} {id : ScopeId} {env : Env}

theorem extends_push (scopes : Scopes) (scope : Scope) : scopes.Extends (scopes.push scope) :=
  fun _ _ h => getElem?_push_of_some h scope

/-- New scopes change nothing for an old one. -/
theorem Sees.extends (h : scopes.Sees id env) (htree : scopes'.IsTree)
    (hext : scopes.Extends scopes') : scopes'.Sees id env where
  tree := htree
  lt_size := by
    obtain ⟨scope, hscope⟩ := exists_scope h.lt_size
    exact Scopes.lt_size (hext id scope hscope)
  value name := (h.tree.search_extends htree hext _ h.lt_size).trans (h.value name)
  transformer name := (h.tree.search_extends htree hext _ h.lt_size).trans (h.transformer name)

theorem Sees.tree_push (h : scopes.Sees id env) (t : Table Value) :
    IsTree (scopes.push ⟨t, [], some id⟩) := h.tree.push rfl h.lt_size

/-- A new scope sees what is bound in it, and otherwise what the scope around it sees. -/
theorem Sees.push (h : scopes.Sees id env) (t : Table Value) :
    Sees (scopes.push ⟨t, [], some id⟩) scopes.size (env.bind t) := by
  have htree := h.tree_push t
  have hparent := h.extends htree (extends_push scopes _)
  have hget : (scopes.push ⟨t, [], some id⟩)[scopes.size]? = some ⟨t, [], some id⟩ :=
    Array.getElem?_push_size
  refine ⟨htree, Scopes.lt_size hget, fun name => ?_, fun name => ?_⟩
  · rw [lookup?, htree.search_eq _ hget, Option.bind_some]
    exact congrArg (Option.or (t.find? name)) (hparent.value name)
  · rw [transformer?, htree.search_eq _ hget, Option.bind_some]
    exact hparent.transformer name

/-- The scope around a new one sees what it saw. -/
theorem Sees.push_extends {id' : ScopeId} {env' : Env} (h' : scopes.Sees id' env')
    (h : scopes.Sees id env) (t : Table Value) : Sees (scopes.push ⟨t, [], some id⟩) id' env' :=
  h'.extends (h.tree_push t) (extends_push scopes _)

/-! ### Definitions in the root -/

theorem getElem?_define_self {scope : Scope} (h : scopes[id]? = some scope) (name : Text) (v : Value) :
    (scopes.define id name v)[id]? = some { scope with bindings := scope.bindings.put name v } := by
  rw [define, Array.getElem?_modify, if_pos rfl, h]
  rfl

theorem getElem?_defineTransformer_self {scope : Scope} (h : scopes[id]? = some scope) (name : Text)
    (c : ClosureId) : (scopes.defineTransformer id name c)[id]? =
      some { scope with transformers := scope.transformers.put name c } := by
  rw [defineTransformer, Array.getElem?_modify, if_pos rfl, h]
  rfl

/-- In the root, names mean what is bound there. -/
theorem IsTree.sees_root (h : scopes.IsTree) {t : Table Value} {m : Table ClosureId}
    {parent : Option ScopeId} (hroot : scopes[rootScope]? = some ⟨t, m, parent⟩) :
    scopes.Sees rootScope ⟨fun name => t.find? name, fun name => m.find? name⟩ := by
  obtain ⟨root, hroot', hnone⟩ := h.root
  obtain rfl := Option.some.inj (hroot'.symm.trans hroot)
  refine ⟨h, Scopes.lt_size hroot, fun name => ?_, fun name => ?_⟩
  · rw [lookup?, h.search_eq _ hroot, show parent = none from hnone]
    exact Option.or_none
  · rw [transformer?, h.search_eq _ hroot, show parent = none from hnone]
    exact Option.or_none

/-- A definition in the root. -/
theorem Sees.define_root (h : scopes.Sees rootScope env) (name : Text) (v : Value) :
    (scopes.define rootScope name v).Sees rootScope (env.define name v) := by
  obtain ⟨⟨t, m, parent⟩, hroot⟩ := exists_scope h.lt_size
  have hold := h.tree.sees_root hroot
  have hnew := (h.tree.define rootScope name v).sees_root (getElem?_define_self hroot name v)
  refine ⟨hnew.tree, hnew.lt_size, fun other => ?_, fun other => ?_⟩
  · have hvalue : env.value other = t.find? other := (h.value other).symm.trans (hold.value other)
    exact (hnew.value other).trans ((Table.find?_put_eq name other v t).trans (by rw [← hvalue]; rfl))
  · exact (hnew.transformer other).trans ((hold.transformer other).symm.trans (h.transformer other))

/-- The definition of a transformer in the root. -/
theorem Sees.defineTransformer_root (h : scopes.Sees rootScope env) (name : Text) (c : ClosureId) :
    (scopes.defineTransformer rootScope name c).Sees rootScope (env.defineTransformer name c) := by
  obtain ⟨⟨t, m, parent⟩, hroot⟩ := exists_scope h.lt_size
  have hold := h.tree.sees_root hroot
  have hnew := (h.tree.defineTransformer rootScope name c).sees_root
    (getElem?_defineTransformer_self hroot name c)
  refine ⟨hnew.tree, hnew.lt_size, fun other => ?_, fun other => ?_⟩
  · exact (hnew.value other).trans ((hold.value other).symm.trans (h.value other))
  · have htransformer : env.transformer other = m.find? other :=
      (h.transformer other).symm.trans (hold.transformer other)
    exact (hnew.transformer other).trans
      ((Table.find?_put_eq name other c m).trans (by rw [← htransformer]; rfl))

end Scopes

/-- The root of a fresh session. -/
theorem Session.initialStore_sees (input : Text) (files : FileTree) (directory : Path)
    (loadRoots : List Path) :
    (initialStore input files directory loadRoots).scopes.Sees rootScope Env.initial :=
  (initialStore_wellFormed input files directory loadRoots).scopes.sees_root rfl

end Lisplet
