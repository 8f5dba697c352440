import QueryTree.Value.Literal

/-!
# Registries of operators

A registry maps operator names to handlers.  It is a stack of layers: a name that the registry
itself does not have is looked up in the layer below it, and so on.  Layers are open while a dialect
is composed and frozen afterwards.

* `Layer` holds the names of one dialect.  `Layer.register` replaces an earlier handler of the same
  name; it is refused by a frozen layer and for a name that is not an operator's.
* `Registry` is a layer with the layers below it, nearest first.  **`Registry.find?`** is the
  nearest handler of a name.
* `Pool` holds several registries that can refer to each other.  A registry of a pool is looked up
  through the present state of those below it.
-/

namespace QueryTree

/-! ## Sorted names -/

/-- Insert a name into an ascending list, unless it is there. -/
def insertName (name : String) : List String → List String
  | [] => [name]
  | first :: rest =>
    if name < first then name :: first :: rest
    else if name = first then first :: rest
    else first :: insertName name rest

/-- The names of a list in ascending order, each once. -/
def sortNames (names : List String) : List String :=
  names.foldr insertName []

/-! ## Layers -/

/-- The names of one dialect and their handlers. -/
structure Layer (α : Type) where
  dialect : String
  entries : List (String × α) := []
  frozen : Bool := false

/-- Why a registration is refused. -/
inductive RegistryFault where
  | frozen (name : Value) (dialect : String)
  | badName (name : Value)

/-- The wording of a refused registration. -/
def RegistryFault.message : RegistryFault → String
  | .frozen name dialect =>
    "Cannot register '" ++ name.plain ++ "': dialect '" ++ dialect ++ "' is already built."
  | .badName name => "Operator names must start with '$', got " ++ name.literal ++ "."

/-- The name of an operator: a dollar sign and at least one character. -/
def isOperatorName (name : String) : Bool :=
  match name.toList with
  | '$' :: _ :: _ => true
  | _ => false

/-- Give a name a handler: in place if it has one, at the end if not. -/
def setEntry {α : Type} (name : String) (handler : α) : List (String × α) → List (String × α)
  | [] => [(name, handler)]
  | (key, old) :: rest =>
    if key = name then (name, handler) :: rest else (key, old) :: setEntry name handler rest

namespace Layer

variable {α : Type}

/-- The handler of a name in this layer. -/
def get? (layer : Layer α) (name : String) : Option α :=
  layer.entries.lookup name

/-- The names of this layer. -/
def names (layer : Layer α) : List String :=
  layer.entries.map Prod.fst

/-- Give a name a handler. -/
def register (layer : Layer α) (name : Value) (handler : α) : Except RegistryFault (Layer α) :=
  if layer.frozen then .error (.frozen name layer.dialect)
  else
    match name with
    | .str text =>
      if isOperatorName text then .ok { layer with entries := setEntry text handler layer.entries }
      else .error (.badName name)
    | _ => .error (.badName name)

/-- Close the layer to registrations. -/
def freeze (layer : Layer α) : Layer α :=
  { layer with frozen := true }

end Layer

/-! ## Registries -/

/-- A layer and the layers below it, nearest first. -/
structure Registry (α : Type) where
  own : Layer α
  below : List (Layer α) := []

/-- The name that could not be resolved, and the dialect of the registry that was asked. -/
structure UnresolvedName where
  name : Value
  dialect : String

namespace Registry

variable {α : Type}

/-- All layers, nearest first. -/
def layers (r : Registry α) : List (Layer α) :=
  r.own :: r.below

/-- The nearest handler of a name. -/
def find? (r : Registry α) (name : String) : Option α :=
  r.layers.findSome? fun layer => layer.get? name

/-- The nearest handler of a value; only texts are names. -/
def get? (r : Registry α) : Value → Option α
  | .str name => r.find? name
  | _ => none

/-- The nearest handler of a value, which has to have one. -/
def resolve (r : Registry α) (name : Value) : Except UnresolvedName α :=
  match r.get? name with
  | some handler => .ok handler
  | none => .error ⟨name, r.own.dialect⟩

/-- Whether a value names a handler. -/
def contains (r : Registry α) (name : Value) : Bool :=
  (r.get? name).isSome

/-- The names that have a handler, in ascending order. -/
def names (r : Registry α) : List String :=
  sortNames (r.layers.flatMap Layer.names)

/-- An empty registry above another one. -/
def derive (dialect : String) (base : Option (Registry α)) : Registry α :=
  { own := { dialect := dialect }, below := (base.map layers).getD [] }

end Registry

/-! ## Pools of registries -/

/-- Registries that can refer to each other: each has a layer of its own and may stand above one
that was created before it. -/
structure Pool (α : Type) where
  cells : List (Layer α × Option Nat) := []

namespace Pool

variable {α : Type}

/-- The layers of a registry, nearest first. -/
def chain (cells : List (Layer α × Option Nat)) (index : Nat) : List (Layer α) :=
  match cells[index]? with
  | none => []
  | some (layer, none) => [layer]
  | some (layer, some below) => if below < index then layer :: chain cells below else [layer]

/-- Create a registry, above another one if it is given; its number comes with the new pool. -/
def create (pool : Pool α) (dialect : String) (fallback : Option Nat) : Pool α × Nat :=
  (⟨pool.cells ++ [({ dialect := dialect }, fallback)]⟩, pool.cells.length)

/-- A registry in its present state. -/
def registry? (pool : Pool α) (index : Nat) : Option (Registry α) :=
  match chain pool.cells index with
  | [] => none
  | own :: below => some ⟨own, below⟩

/-- Change the layer of a registry. -/
def setLayer (pool : Pool α) (index : Nat) (layer : Layer α) : Pool α :=
  ⟨pool.cells.modify index fun cell => (layer, cell.2)⟩

/-- Register a handler in a registry. -/
def register (pool : Pool α) (index : Nat) (name : Value) (handler : α) :
    Except RegistryFault (Pool α) :=
  match pool.cells[index]? with
  | none => .ok pool
  | some (layer, _) => (layer.register name handler).map (pool.setLayer index)

/-- Freeze a registry. -/
def freeze (pool : Pool α) (index : Nat) : Pool α :=
  match pool.cells[index]? with
  | none => pool
  | some (layer, _) => pool.setLayer index layer.freeze

end Pool

end QueryTree
