import Mathlib.Tactic.Common
import ScriptConsole.Session

/-!
# What an evaluation changes

An evaluation writes to the scope it runs in and to the scopes of the calls it makes, which are gone
when it ends. `Evaluation.Effect` lists what a relation between the sessions before and after has to
satisfy to hold of every evaluation and every call; the induction over trees and nested calls is done
once for all such relations (`Effect.evaluate`, `Effect.call`). Here it is used for the bindings of
scopes.
-/

namespace ScriptConsole

namespace Evaluation

variable {α β : Type}

/-- The session that a computation leaves, whether it succeeds or fails. -/
def after (x : Eval α) (session : Session) : Session :=
  match x session with
  | .ok _ session' => session'
  | .error _ session' => session'

lemma after_map (f : α → β) (x : Eval α) (s : Session) : after (f <$> x) s = after x s := by
  unfold after
  simp only [Functor.map, EStateM.map]
  cases x s <;> rfl

/-- A relation holds between the sessions before and after a computation. -/
def Keeps (R : Session → Session → Prop) (x : Eval α) : Prop :=
  ∀ session, R session (after x session)

/-- A call leaves what its body leaves, without its scope. -/
lemma after_inScope (parent : ScopeId) (names : List String) (values : List Value)
    (body : ScopeId → Eval Value) (s : Session) :
    after (inScope parent names values body) s =
      leave (enter parent names values s).1
        (after (body (enter parent names values s).1) (enter parent names values s).2) := by
  unfold after inScope
  dsimp only
  cases body (enter parent names values s).1 (enter parent names values s).2 <;> rfl

/-- What it takes for a relation to hold between the sessions before and after every evaluation in a
scope and, with `none`, every call. -/
structure Effect (R : Option ScopeId → Session → Session → Prop) : Prop where
  refl : ∀ scope s, R scope s s
  trans : ∀ {scope s t u}, R scope s t → R scope t u → R scope s u
  weaken : ∀ {s t} scope, R none s t → R scope s t
  define : ∀ scope name value s, R (some scope) s { s with store := s.store.define scope name value }
  fresh : ∀ s, R none s { s with store := s.store.fresh.2 }
  raise : ∀ signal s, R none s { s with signals := s.signals ++ [signal] }
  call : ∀ {parent names values s t},
    R (some (enter parent names values s).1) (enter parent names values s).2 t →
      R none s (leave (enter parent names values s).1 t)

namespace Effect

variable {R : Option ScopeId → Session → Session → Prop} (h : Effect R) {within : Option ScopeId}
  {call : Value → List Value → Eval Value}

include h

lemma keeps_pure (value : α) : Keeps (R within) (pure value : Eval α) :=
  fun s => h.refl within s

lemma keeps_throw (error : Error) : Keeps (R within) (throw error : Eval α) :=
  fun s => h.refl within s

lemma keeps_ofExcept (result : Except Error α) :
    Keeps (R within) (MonadExcept.ofExcept result : Eval α) := by
  cases result with
  | ok value => exact h.keeps_pure value
  | error error => exact h.keeps_throw error

lemma keeps_lookup (scope : ScopeId) (name : String) : Keeps (R within) (lookup scope name) :=
  fun s => h.refl within s

lemma keeps_bind {x : Eval α} {f : α → Eval β} (hx : Keeps (R within) x)
    (hf : ∀ value, Keeps (R within) (f value)) : Keeps (R within) (x >>= f) := by
  intro s
  have hfirst := hx s
  unfold after at hfirst ⊢
  simp only [bind, EStateM.bind]
  cases hresult : x s with
  | ok value t =>
    rw [hresult] at hfirst
    exact h.trans hfirst (hf value t)
  | error error t =>
    rw [hresult] at hfirst
    exact hfirst

lemma keeps_define (scope : ScopeId) (name : String) (value : Value) :
    Keeps (R (some scope)) (Evaluation.define scope name value) :=
  fun s => h.define scope name value s

lemma keeps_makeClosure (scope : ScopeId) (name : String) (params : List String) (body : Node) :
    Keeps (R (some scope)) (makeClosure scope name params body) :=
  fun s => h.weaken _ (h.fresh s)

lemma keeps_callBuiltin (f : Builtin) (args : List Value) : Keeps (R none) (callBuiltin f args) := by
  cases f with
  | abs =>
    cases args with
    | nil => exact h.keeps_throw _
    | cons => exact h.keeps_ofExcept _
  | cls => exact h.keeps_bind (fun s => h.raise _ s) fun _ => h.keeps_pure _

lemma keeps_assignment (scope : ScopeId) (op : AssignOp) (left right : Node) (g : Bool)
    (hright : Keeps (R (some scope)) (evaluateWith call scope right)) :
    Keeps (R (some scope)) (evaluateWith call scope (.assignment op left right g)) := by
  cases left with
  | identifier name =>
    cases op with
    | assign =>
      rw [evaluateWith]
      refine h.keeps_bind hright fun value => ?_
      exact h.keeps_bind (h.keeps_define scope name value) fun _ => h.keeps_pure value
    | compound op =>
      rw [evaluateWith]
      refine h.keeps_bind (h.keeps_lookup scope name) fun current => ?_
      refine h.keeps_bind hright fun operand => ?_
      refine h.keeps_bind (h.keeps_ofExcept _) fun value => ?_
      exact h.keeps_bind (h.keeps_define scope name value) fun _ => h.keeps_pure value
  | call callee arguments =>
    cases op with
    | assign =>
      rw [evaluateWith]
      refine h.keeps_bind (h.keeps_ofExcept _) fun params => ?_
      refine h.keeps_bind (h.keeps_makeClosure scope callee params right) fun closure => ?_
      exact h.keeps_bind (h.keeps_define scope callee _) fun _ => h.keeps_pure _
    | compound op =>
      rw [evaluateWith]
      exact h.keeps_throw _
  | _ => cases op <;> exact h.keeps_throw _

mutual

lemma keeps_evaluateWith (hcall : ∀ f args, Keeps (R none) (call f args)) (scope : ScopeId)
    (node : Node) : Keeps (R (some scope)) (evaluateWith call scope node) := by
  match node with
  | .identifier name _ => exact h.keeps_lookup scope name
  | .literal value _ => exact h.keeps_pure _
  | .array _ _ => exact h.keeps_throw _
  | .function name params body _ =>
    rw [evaluateWith]
    refine h.keeps_bind (h.keeps_makeClosure scope _ params body) fun closure => ?_
    cases name with
    | none => exact h.keeps_pure _
    | some name => exact h.keeps_bind (h.keeps_define scope name _) fun _ => h.keeps_pure _
  | .block body _ => exact keeps_evaluateBody hcall scope .null body
  | .statement inner _ => exact keeps_evaluateWith hcall scope inner
  | .assignment op left right g =>
    exact h.keeps_assignment scope op left right g (keeps_evaluateWith hcall scope right)
  | .binary op left right _ =>
    rw [evaluateWith]
    refine h.keeps_bind (keeps_evaluateWith hcall scope left) fun a => ?_
    exact h.keeps_bind (keeps_evaluateWith hcall scope right) fun b => h.keeps_ofExcept _
  | .unary op operand _ =>
    rw [evaluateWith]
    exact h.keeps_bind (keeps_evaluateWith hcall scope operand) fun value => h.keeps_ofExcept _
  | .call callee arguments _ =>
    rw [evaluateWith]
    refine h.keeps_bind (h.keeps_lookup scope callee) fun function => ?_
    split
    · refine h.keeps_bind (keeps_evaluateAll hcall scope arguments) fun values s => ?_
      exact h.weaken _ (hcall function values s)
    · exact h.keeps_throw _

lemma keeps_evaluateBody (hcall : ∀ f args, Keeps (R none) (call f args)) (scope : ScopeId)
    (last : Value) (body : List Node) :
    Keeps (R (some scope)) (evaluateBody call scope last body) := by
  match body with
  | [] => exact h.keeps_pure last
  | statement :: rest =>
    rw [evaluateBody]
    exact h.keeps_bind (keeps_evaluateWith hcall scope statement) fun value =>
      keeps_evaluateBody hcall scope value rest

lemma keeps_evaluateAll (hcall : ∀ f args, Keeps (R none) (call f args)) (scope : ScopeId)
    (arguments : List Node) : Keeps (R (some scope)) (evaluateAll call scope arguments) := by
  match arguments with
  | [] => exact h.keeps_pure []
  | argument :: rest =>
    rw [evaluateAll]
    refine h.keeps_bind (keeps_evaluateWith hcall scope argument) fun value => ?_
    exact h.keeps_bind (keeps_evaluateAll hcall scope rest) fun values => h.keeps_pure _

end

lemma keeps_inScope {parent : ScopeId} {names : List String} {values : List Value}
    {body : ScopeId → Eval Value} (hbody : ∀ scope, Keeps (R (some scope)) (body scope)) :
    Keeps (R none) (inScope parent names values body) := by
  intro s
  rw [after_inScope]
  exact h.call (hbody _ _)

/-- Every call is an effect, however many calls may still be made inside it. -/
theorem keeps_callWith (callsLeft : Nat) (f : Value) (args : List Value) :
    Keeps (R none) (callWith callsLeft f args) := by
  induction callsLeft generalizing f args with
  | zero =>
    cases f with
    | builtin f => exact h.keeps_callBuiltin f args
    | _ => exact h.keeps_throw _
  | succ callsLeft ih =>
    cases f with
    | builtin f => exact h.keeps_callBuiltin f args
    | closure c =>
      rw [callWith]
      refine h.keeps_bind (fun s => h.refl none s) fun s => ?_
      split
      · exact h.keeps_inScope fun scope => h.keeps_evaluateWith ih scope c.body
      · exact h.keeps_throw _
    | _ => exact h.keeps_throw _

theorem keeps_call (f : Value) (args : List Value) : Keeps (R none) (Evaluation.call f args) :=
  fun s => h.keeps_callWith _ f args s

theorem keeps_evaluate (scope : ScopeId) (node : Node) :
    Keeps (R (some scope)) (evaluate scope node) :=
  h.keeps_evaluateWith h.keeps_call scope node

end Effect

end Evaluation

namespace Store

variable {store : Store} {scope other : ScopeId}

/-- What a scope binds, and its parent, if the scope is there. -/
def frame? (store : Store) (scope : ScopeId) : Option Frame :=
  store.frames.lookup scope

/-- The next name to be given out names no scope. -/
lemma frame?_next (store : Store) : store.frame? store.next = none := by
  rw [frame?, List.lookup_eq_none_iff]
  intro entry hmem
  have hlt : entry.1 < store.next := store.below entry hmem
  exact bne_iff_ne.mpr (Nat.ne_of_gt hlt)

lemma frame?_push_of_ne (h : other ≠ store.next) (parent : Option ScopeId) :
    (store.push parent).2.frame? other = store.frame? other := by
  have hne : (other == store.next) = false := by simpa using h
  simp only [frame?, push, List.lookup_cons, hne]

lemma frame?_define_of_ne (h : other ≠ scope) (name : String) (value : Value) :
    (store.define scope name value).frame? other = store.frame? other := by
  simp only [frame?, define]
  induction store.frames with
  | nil => rfl
  | cons entry entries ih =>
    obtain ⟨id, frame⟩ := entry
    rw [List.map_cons, List.lookup_cons, List.lookup_cons, ih]
    by_cases hid : other = id
    · subst hid
      simp [h]
    · have hne : (other == id) = false := by simpa using hid
      simp [hne]

lemma frame?_defineAll_of_ne (h : other ≠ scope) (names : List String) (values : List Value) :
    (store.defineAll scope names values).frame? other = store.frame? other := by
  induction names generalizing store values with
  | nil => rfl
  | cons name names ih =>
    rw [defineAll, ih, frame?_define_of_ne h]

lemma frame?_release_of_ne (h : other ≠ scope) :
    (store.release scope).frame? other = store.frame? other := by
  simp only [frame?, release]
  induction store.frames with
  | nil => rfl
  | cons entry entries ih =>
    obtain ⟨id, frame⟩ := entry
    rw [List.filter_cons, List.lookup_cons]
    by_cases hid : id = scope
    · subst hid
      have hne : (other == id) = false := by simpa using h
      simpa [hne] using ih
    · simp [hid, List.lookup_cons, ih]

lemma frame?_release_self (store : Store) (scope : ScopeId) :
    (store.release scope).frame? scope = none := by
  rw [frame?, List.lookup_eq_none_iff]
  intro entry hmem
  have hne := (List.mem_filter.mp hmem).2
  simp only [bne_iff_ne, ne_eq] at hne ⊢
  exact fun heq => hne heq.symm

end Store

namespace Evaluation

/-- Every scope binds what it did before, but for the one that may be written to. -/
def FramesKept (within : Option ScopeId) (s t : Session) : Prop :=
  ∀ other, within ≠ some other → t.store.frame? other = s.store.frame? other

/-- The scope of a call is new, and it is gone when the call returns. -/
theorem effect_framesKept : Effect FramesKept where
  refl _ _ _ _ := rfl
  trans hst htu other hother := (htu other hother).trans (hst other hother)
  weaken _ h other _ := h other (by simp)
  define scope name value s other hother := Store.frame?_define_of_ne (by simpa [eq_comm] using hother) name value
  fresh _ _ _ := rfl
  raise _ _ _ _ := rfl
  call {parent names values s t} h other _ := by
    -- the scope of the call has a name that no scope had before
    by_cases hother : other = s.store.next
    · subst hother
      rw [Store.frame?_next]
      exact Store.frame?_release_self t.store _
    · have hne : other ≠ (enter parent names values s).1 := hother
      calc
        (leave (enter parent names values s).1 t).store.frame? other = t.store.frame? other :=
          Store.frame?_release_of_ne hne
        _ = (enter parent names values s).2.store.frame? other := h other (by simpa [eq_comm] using hne)
        _ = (s.store.push (some parent)).2.frame? other := Store.frame?_defineAll_of_ne hne names values
        _ = s.store.frame? other := Store.frame?_push_of_ne hother (some parent)

end Evaluation

/-- An evaluation leaves the bindings of all scopes as they are but for the scope it runs in, and a
call leaves those of all scopes as they are, whether they succeed or fail. -/
theorem frames_kept_by_evaluate_and_call (session : Session) :
    (∀ scope node other, other ≠ scope →
      (Evaluation.after (Evaluation.evaluate scope node) session).store.frame? other =
        session.store.frame? other) ∧
    ∀ f args other,
      (Evaluation.after (Evaluation.call f args) session).store.frame? other =
        session.store.frame? other := by
  constructor
  · intro scope node other hother
    exact Evaluation.effect_framesKept.keeps_evaluate scope node session other
      (by simpa [eq_comm] using hother)
  · intro f args other
    exact Evaluation.effect_framesKept.keeps_call f args session other (by simp)

end ScriptConsole
