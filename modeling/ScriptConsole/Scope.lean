import ScriptConsole.Value

/-!
# Scopes

A scope binds names to values and may have a parent in which names are looked up that it does not
bind itself. The `Store` holds the scopes that are still there. A scope is made after its parent, and
the store keeps the newest scope first, so the parent of a scope is always found behind it.
-/

namespace ScriptConsole

/-- What one scope binds, and its parent. -/
structure Frame where
  /-- The bindings, each name at most once. -/
  bindings : List (String × Value) := []
  /-- Where names are looked up that are not bound here. -/
  parent : Option ScopeId := none
deriving DecidableEq, Inhabited

namespace Frame

/-- Binds a name in a list of bindings, in place of what it was bound to. -/
def bind (name : String) (value : Value) : List (String × Value) → List (String × Value)
  | [] => [(name, value)]
  | (other, old) :: rest =>
    if other = name then (name, value) :: rest else (other, old) :: bind name value rest

/-- Binds a name in a frame. -/
def define (frame : Frame) (name : String) (value : Value) : Frame :=
  { frame with bindings := bind name value frame.bindings }

/-- What a frame itself binds a name to. -/
def get? (frame : Frame) (name : String) : Option Value :=
  frame.bindings.lookup name

end Frame

/-- The scopes that are there. -/
structure Store where
  /-- The scopes with their names, the newest first. -/
  frames : List (ScopeId × Frame) := []
  /-- The least number that has not been given out as a name. -/
  next : Nat := 0
  /-- No two scopes have one name, and newer scopes have larger ones. -/
  sorted : frames.Pairwise fun newer older => older.1 < newer.1 := by exact .nil
  /-- The names of scopes have been given out. -/
  below : ∀ entry ∈ frames, entry.1 < next := by exact fun _ h => absurd h List.not_mem_nil
deriving DecidableEq

namespace Store

/-- No scopes. -/
def empty : Store := {}

instance : Inhabited Store := ⟨empty⟩

/-- Whether a scope is still there. -/
def isLive (store : Store) (scope : ScopeId) : Bool :=
  store.frames.any fun (id, _) => id == scope

/-- Gives out a name. -/
def fresh (store : Store) : Nat × Store :=
  (store.next,
    { store with
      next := store.next + 1
      below := fun entry h => Nat.lt_succ_of_lt (store.below entry h) })

/-- Makes an empty scope. -/
def push (store : Store) (parent : Option ScopeId) : ScopeId × Store :=
  (store.next,
    { frames := (store.next, ⟨[], parent⟩) :: store.frames
      next := store.next + 1
      sorted := .cons store.below store.sorted
      below := List.forall_mem_cons.mpr
        ⟨Nat.lt_succ_self _, fun entry h => Nat.lt_succ_of_lt (store.below entry h)⟩ })

/-- Takes a scope away. -/
def release (store : Store) (scope : ScopeId) : Store :=
  { store with
    frames := store.frames.filter fun (id, _) => id != scope
    sorted := store.sorted.filter _
    below := fun entry h => store.below entry (List.mem_filter.mp h).1 }

/-- Binds a name in a scope; no other scope changes. -/
def define (store : Store) (scope : ScopeId) (name : String) (value : Value) : Store :=
  { store with
    frames := store.frames.map fun (id, frame) =>
      (id, if id = scope then frame.define name value else frame)
    sorted := List.pairwise_map.mpr store.sorted
    below := List.forall_mem_map.mpr store.below }

/-- Binds names to values in a scope, from left to right. Names without a value are bound to null,
and values without a name are dropped. -/
def defineAll (store : Store) (scope : ScopeId) : List String → List Value → Store
  | [], _ => store
  | name :: names, values =>
    (store.define scope name (values.headD .null)).defineAll scope names values.tail

/-- What a name is bound to in the nearest scope that binds it, starting from a given one. -/
def find? : List (ScopeId × Frame) → ScopeId → String → Option Value
  | [], _, _ => none
  | (id, frame) :: older, scope, name =>
    if id = scope then
      match frame.get? name with
      | some value => some value
      | none => frame.parent.bind fun parent => find? older parent name
    else
      find? older scope name

/-- Looks a name up in a scope. A name that is bound nowhere is a built-in, or null. -/
def get (store : Store) (scope : ScopeId) (name : String) : Value :=
  match find? store.frames scope name with
  | some value => value
  | none =>
    match Builtin.ofName? name with
    | some f => .builtin f
    | none => .null

end Store

end ScriptConsole
