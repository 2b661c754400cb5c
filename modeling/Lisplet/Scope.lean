import Lisplet.Params

/-!
# Scopes

A scope binds names to values and, in a table of its own, names to transformers; every scope but the
root has a parent that was made before it. A name means the nearest binding on the way from a scope
to the root. `Scopes.chain` lists that way, and the two look-ups are described through it.
-/

namespace Lisplet

/-- One scope. -/
structure Scope where
  /-- The values bound here. -/
  bindings : Table Value
  /-- The transformers defined here. -/
  transformers : Table ClosureId
  /-- The scope around this one. -/
  parent : Option ScopeId

/-- All scopes there are, by identity. -/
abbrev Scopes := Array Scope

namespace Scopes

/-- The first answer that a scope gives on the way to the root; the fuel bounds the way. -/
def searchFrom {α : Type} (scopes : Scopes) (answer : ScopeId → Scope → Option α) :
    Nat → ScopeId → Option α
  | 0, _ => none
  | fuel + 1, id =>
    match scopes[id]? with
    | none => none
    | some scope =>
      match answer id scope with
      | some a => some a
      | none =>
        match scope.parent with
        | none => none
        | some parent => searchFrom scopes answer fuel parent

/-- The first answer that a scope gives on the way to the root. -/
def search {α : Type} (scopes : Scopes) (answer : ScopeId → Scope → Option α) (id : ScopeId) :
    Option α :=
  searchFrom scopes answer (id + 1) id

/-- The scopes on the way to the root; the fuel bounds the way. -/
def chainFrom (scopes : Scopes) : Nat → ScopeId → List ScopeId
  | 0, _ => []
  | fuel + 1, id =>
    match scopes[id]? with
    | none => []
    | some scope =>
      id :: match scope.parent with
        | none => []
        | some parent => chainFrom scopes fuel parent

/-- The scopes from one to the root, nearest first. -/
def chain (scopes : Scopes) (id : ScopeId) : List ScopeId := chainFrom scopes (id + 1) id

/-- The value of a name in this scope alone. -/
def here? (scopes : Scopes) (id : ScopeId) (name : Text) : Option Value :=
  scopes[id]?.bind fun scope => scope.bindings.find? name

/-- The nearest scope that binds a name. -/
def binder? (scopes : Scopes) (id : ScopeId) (name : Text) : Option ScopeId :=
  scopes.search (fun i scope => (scope.bindings.find? name).map fun _ => i) id

/-- The value that a name means in a scope. -/
def lookup? (scopes : Scopes) (id : ScopeId) (name : Text) : Option Value :=
  scopes.search (fun _ scope => scope.bindings.find? name) id

/-- The transformer that a name means in a scope. -/
def transformer? (scopes : Scopes) (id : ScopeId) (name : Text) : Option ClosureId :=
  scopes.search (fun _ scope => scope.transformers.find? name) id

/-- Binds a name in a scope. -/
def define (scopes : Scopes) (id : ScopeId) (name : Text) (v : Value) : Scopes :=
  scopes.modify id fun scope => { scope with bindings := scope.bindings.put name v }

/-- Changes the nearest binding of a name; `none` if there is none. -/
def assign? (scopes : Scopes) (id : ScopeId) (name : Text) (v : Value) : Option Scopes :=
  match scopes.binder? id name with
  | none => none
  | some binder => some (scopes.define binder name v)

/-- Defines a transformer in a scope. -/
def defineTransformer (scopes : Scopes) (id : ScopeId) (name : Text) (c : ClosureId) : Scopes :=
  scopes.modify id fun scope => { scope with transformers := scope.transformers.put name c }

/-- The way from one scope to the root ends in this scope. -/
def root (scopes : Scopes) (id : ScopeId) : ScopeId := (scopes.chain id).getLastD id

/-- The number of scopes around one. -/
def depth (scopes : Scopes) (id : ScopeId) : Nat := (scopes.chain id).length - 1

end Scopes

/-- How many names a scope binds and how many scopes are around it, in words. -/
def Scopes.describe (scopes : Scopes) (id : ScopeId) : Text :=
  let count := (scopes[id]?.map fun scope => scope.bindings.length).getD 0
  text "<Environment " ++ natText count ++ text " bindings, depth " ++ natText (scopes.depth id) ++
    text ">"

/-- The names of a scope in braces, with an arrow if there is a scope around it. -/
def Scope.render (scope : Scope) : Text :=
  text "\x7b" ++ Text.join (text ", ") scope.bindings.names ++ text "\x7d" ++
    (if scope.parent.isSome then text " -> ..." else [])

end Lisplet
