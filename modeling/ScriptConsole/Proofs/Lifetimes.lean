import Mathlib
import ScriptConsole.Proofs.CallDepth

/-!
# How long closures can be called

A closure can be called as long as the scope it was made in is there. `Enters.keeps_or_calls` says
what a part of an evaluation starts with: the scopes that are there are those of the whole, and one
more if the part is the body of a call. Names of scopes are given out in order and never twice, so
they tell what was there before and what is new. From this it follows that a scope is gone exactly if
it belongs to a call that has returned (`isLive_of_returned`, `isLive_of_not_returned`).
-/

namespace ScriptConsole

namespace Store

variable {store : Store} {scope other : ScopeId}

lemma isLive_eq_isSome (store : Store) (scope : ScopeId) :
    store.isLive scope = (store.frame? scope).isSome := by
  rw [isLive, frame?]
  induction store.frames with
  | nil => rfl
  | cons entry entries ih =>
    obtain ⟨id, frame⟩ := entry
    rw [List.any_cons, List.lookup_cons, ih]
    by_cases hid : scope = id
    · simp [hid]
    · have hne : (id == scope) = false := by simpa using Ne.symm hid
      have hne' : (scope == id) = false := by simpa using hid
      simp only [hne, hne', Bool.false_or]

lemma lt_next_of_isLive (h : store.isLive scope = true) : scope < store.next := by
  obtain ⟨⟨id, frame⟩, hmem, hid⟩ := List.any_eq_true.mp h
  have hlt := store.below _ hmem
  rwa [beq_iff_eq.mp hid] at hlt

lemma isLive_next (store : Store) : store.isLive store.next = false := by
  rw [isLive_eq_isSome, frame?_next]
  rfl

@[simp]
lemma isLive_define (store : Store) (scope : ScopeId) (name : String) (value : Value)
    (other : ScopeId) : (store.define scope name value).isLive other = store.isLive other := by
  rw [isLive, isLive, define, List.any_map]
  rfl

@[simp]
lemma next_defineAll (store : Store) (scope : ScopeId) (names : List String) (values : List Value) :
    (store.defineAll scope names values).next = store.next := by
  induction names generalizing store values with
  | nil => rfl
  | cons name names ih => exact ih _ _

@[simp]
lemma isLive_defineAll (store : Store) (scope : ScopeId) (names : List String)
    (values : List Value) (other : ScopeId) :
    (store.defineAll scope names values).isLive other = store.isLive other := by
  induction names generalizing store values with
  | nil => rfl
  | cons name names ih => rw [defineAll, ih, isLive_define]

lemma isLive_push (store : Store) (parent : Option ScopeId) (other : ScopeId) :
    (store.push parent).2.isLive other = (store.next == other || store.isLive other) :=
  rfl

lemma isLive_release (store : Store) (scope other : ScopeId) :
    (store.release scope).isLive other = (other != scope && store.isLive other) := by
  by_cases h : other = scope
  · subst h
    rw [isLive_eq_isSome, frame?_release_self]
    simp
  · rw [isLive_eq_isSome, isLive_eq_isSome, frame?_release_of_ne h]
    simp [h]

end Store

namespace Evaluation

variable {α β : Type}

section Enter

variable (parent : ScopeId) (names : List String) (values : List Value) (s : Session)

@[simp]
lemma next_enter : (enter parent names values s).2.store.next = s.store.next + 1 :=
  Store.next_defineAll _ _ _ _

lemma isLive_enter (other : ScopeId) :
    (enter parent names values s).2.store.isLive other =
      (s.store.next == other || s.store.isLive other) :=
  Store.isLive_defineAll _ _ _ _ _

end Enter

/-- The same scopes are there, and names may have been given out. -/
def ScopesKept (_ : Option ScopeId) (s t : Session) : Prop :=
  (∀ scope, t.store.isLive scope = s.store.isLive scope) ∧ s.store.next ≤ t.store.next

theorem effect_scopesKept : Effect ScopesKept where
  refl _ _ := ⟨fun _ => rfl, Nat.le_refl _⟩
  trans hst htu := ⟨fun scope => (htu.1 scope).trans (hst.1 scope), Nat.le_trans hst.2 htu.2⟩
  weaken _ h := h
  define scope name value s := ⟨fun other => s.store.isLive_define scope name value other, Nat.le_refl _⟩
  fresh _ := ⟨fun _ => rfl, Nat.le_succ _⟩
  raise _ _ := ⟨fun _ => rfl, Nat.le_refl _⟩
  call {parent names values s t} h := by
    obtain ⟨hlive, hnext⟩ := h
    rw [next_enter] at hnext
    refine ⟨fun other => ?_, Nat.le_of_succ_le hnext⟩
    -- the scope of the call had no name before, and it is taken away again
    change (t.store.release s.store.next).isLive other = _
    rw [Store.isLive_release, hlive, isLive_enter]
    by_cases hother : other = s.store.next
    · rw [hother, Store.isLive_next]
      simp
    · have hne : (s.store.next == other) = false := by simpa using Ne.symm hother
      simp [hother, hne]

/-- The session when the task of a point is done. -/
def Point.after : Point → Session
  | ⟨.evaluate scope node, s⟩ => Evaluation.after (evaluate scope node) s
  | ⟨.body scope last statements, s⟩ =>
    Evaluation.after (evaluateBody Evaluation.call scope last statements) s
  | ⟨.arguments scope nodes, s⟩ => Evaluation.after (evaluateAll Evaluation.call scope nodes) s
  | ⟨.call function args, s⟩ => Evaluation.after (call function args) s

lemma after_of_ok {x : Eval α} {s t : Session} {value : α} (h : x s = .ok value t) :
    after x s = t := by
  rw [after, h]

lemma after_bind_of_ok {x : Eval α} {f : α → Eval β} {s t : Session} {value : α}
    (h : x s = .ok value t) : after (x >>= f) s = after (f value) t := by
  unfold after
  simp only [bind, EStateM.bind, h]

lemma next_le_after_bind (x : Eval α) {f : α → Eval β}
    (hf : ∀ value, Keeps (ScopesKept none) (f value)) (s : Session) :
    (after x s).store.next ≤ (after (x >>= f) s).store.next := by
  cases hresult : x s with
  | ok value t =>
    rw [after_bind_of_ok hresult, after_of_ok hresult]
    exact (hf value t).2
  | error error t =>
    unfold after
    simp only [bind, EStateM.bind, hresult, Nat.le_refl]

section Kept

variable (scope : ScopeId)

lemma scopesKept_evaluate (node : Node) : Keeps (ScopesKept none) (evaluate scope node) :=
  effect_scopesKept.keeps_evaluate scope node

lemma scopesKept_body (last : Value) (statements : List Node) :
    Keeps (ScopesKept none) (evaluateBody call scope last statements) :=
  effect_scopesKept.keeps_evaluateBody effect_scopesKept.keeps_call scope last statements

lemma scopesKept_arguments (nodes : List Node) :
    Keeps (ScopesKept none) (evaluateAll call scope nodes) :=
  effect_scopesKept.keeps_evaluateAll effect_scopesKept.keeps_call scope nodes

end Kept

/-- The scope that a task runs in; a call has none before it gets its own. -/
def Task.scope? : Task → Option ScopeId
  | .evaluate scope _ | .body scope _ _ | .arguments scope _ => some scope
  | .call _ _ => none

theorem Effect.keeps_task {R : Option ScopeId → Session → Session → Prop} (hR : Effect R)
    (point : Point) : R point.task.scope? point.session point.after := by
  obtain ⟨task, s⟩ := point
  cases task with
  | evaluate scope node => exact hR.keeps_evaluate scope node s
  | body scope last statements => exact hR.keeps_evaluateBody hR.keeps_call scope last statements s
  | arguments scope nodes => exact hR.keeps_evaluateAll hR.keeps_call scope nodes s
  | call function args => exact hR.keeps_call function args s

lemma Point.scopesKept (point : Point) : ScopesKept none point.session point.after :=
  effect_scopesKept.keeps_task point

/-- `Calls outer frame inner`: `outer` is a call that gets the scope `frame`, and `inner` is the
evaluation of the body in it. -/
inductive Calls : Point → ScopeId → Point → Prop
  | closure {c args s} (hdepth : s.depth < maxCallDepth) (hlive : s.store.isLive c.scope = true) :
      Calls ⟨.call (.closure c) args, s⟩ (enter c.scope c.params args s).1
        ⟨.evaluate (enter c.scope c.params args s).1 c.body, (enter c.scope c.params args s).2⟩

/-- What every evaluation does to the session, the parts that are done have done when the next part is
started. A part runs in the scope of the whole unless it is a call or the body of one. -/
theorem Enters.effect_or_calls {R : Option ScopeId → Session → Session → Prop} (hR : Effect R)
    {outer inner : Point} (h : Enters outer inner) :
    (∃ scope, outer.task.scope? = some scope ∧
      (∀ other, inner.task.scope? = some other → other = scope) ∧
      R (some scope) outer.session inner.session) ∨
    ∃ frame, Calls outer frame inner := by
  have hkept {α : Type} {scope : ScopeId} {x : Eval α} {s t : Session} {value : α}
      (hx : Keeps (R (some scope)) x) (hresult : x s = .ok value t) : R (some scope) s t := by
    have hafter := hx s
    rwa [after_of_ok hresult] at hafter
  have hevaluate (scope : ScopeId) (node : Node) : Keeps (R (some scope)) (evaluate scope node) :=
    hR.keeps_evaluate scope node
  have hsame {scope other : ScopeId} (hscope : some scope = some other) : other = scope :=
    (Option.some.inj hscope).symm
  cases h with
  | block | statement | assigned | left | operand | arguments | firstStatement | firstArgument =>
    exact .inl ⟨_, rfl, fun _ => hsame, hR.refl _ _⟩
  | right hleft => exact .inl ⟨_, rfl, fun _ => hsame, hkept (hevaluate _ _) hleft⟩
  | call _ hvalues =>
    refine .inl ⟨_, rfl, fun _ hscope => (Option.some_ne_none _ hscope.symm).elim, ?_⟩
    exact hkept (hR.keeps_evaluateAll hR.keeps_call _ _) hvalues
  | laterStatements hstatement => exact .inl ⟨_, rfl, fun _ => hsame, hkept (hevaluate _ _) hstatement⟩
  | laterArguments hnode => exact .inl ⟨_, rfl, fun _ => hsame, hkept (hevaluate _ _) hnode⟩
  | closure hdepth hlive => exact .inr ⟨_, .closure hdepth hlive⟩

lemma Enters.keeps_or_calls {outer inner : Point} (h : Enters outer inner) :
    (ScopesKept none outer.session inner.session ∧
      ∀ scope, inner.task.scope? = some scope → outer.task.scope? = some scope) ∨
    ∃ frame, Calls outer frame inner := by
  obtain ⟨scope, houter, hinner, hkept⟩ | hcalls := h.effect_or_calls effect_scopesKept
  · exact .inl ⟨hkept, fun other hother => hinner other hother ▸ houter⟩
  · exact .inr hcalls

lemma next_after_le_of_ok {x : Eval α} {f : α → Eval β} {s t u : Session} {value : α}
    (hx : x s = .ok value t) (hu : u.store.next ≤ (after (f value) t).store.next) :
    u.store.next ≤ (after (x >>= f) s).store.next := by
  rwa [after_bind_of_ok hx]

lemma after_congr {x y : Eval α} {s : Session} (h : x s = y s) : after x s = after y s := by
  rw [after, after, h]

lemma after_evaluate_call {scope : ScopeId} {callee : String} {s : Session}
    (h : (s.store.get scope callee).isCallable = true) (nodes : List Node) (g : Bool) :
    after (evaluate scope (.call callee nodes g)) s =
      after (evaluateAll call scope nodes >>= call (s.store.get scope callee)) s := by
  apply after_congr
  change (if (s.store.get scope callee).isCallable then
      evaluateAll call scope nodes >>= call (s.store.get scope callee)
    else throw (.notAFunction callee) : Eval Value) s = _
  rw [if_pos h]

lemma after_call_closure {c : Closure} {args : List Value} {s : Session}
    (hdepth : s.depth < maxCallDepth) (hlive : s.store.isLive c.scope = true) :
    after (call (.closure c) args) s =
      leave s.store.next (after (evaluate s.store.next c.body) (enter c.scope c.params args s).2) := by
  have hcall : call (.closure c) args s =
      inScope c.scope c.params args (fun scope => evaluate scope c.body) s := by
    rw [call_closure, if_neg (Nat.not_le.mpr hdepth), if_pos hlive]
  rw [after_congr hcall, after_inScope]
  rfl

/-- A part is done before the whole is. -/
theorem Enters.next_after_le {outer inner : Point} (h : Enters outer inner) :
    inner.after.store.next ≤ outer.after.store.next := by
  have hpure {α : Type} (value : α) : Keeps (ScopesKept none) (pure value : Eval α) :=
    effect_scopesKept.keeps_pure value
  have hexcept {α : Type} (result : Except Error α) :
      Keeps (ScopesKept none) (MonadExcept.ofExcept result : Eval α) :=
    effect_scopesKept.keeps_ofExcept result
  have hdefine (scope : ScopeId) (name : String) (value : Value) :
      Keeps (ScopesKept none) (do define scope name value; return value) :=
    effect_scopesKept.keeps_bind (effect_scopesKept.keeps_define scope name value) fun _ => hpure _
  cases h with
  | block | statement => exact Nat.le_refl _
  | @assigned scope op name _ right _ s =>
    cases op with
    | assign => exact next_le_after_bind (evaluate scope right) (hdefine scope name) s
    | compound op =>
      refine next_le_after_bind (evaluate scope right) (fun operand => ?_) s
      exact effect_scopesKept.keeps_bind (hexcept _) (hdefine scope name)
  | @left scope op left right _ s =>
    refine next_le_after_bind (evaluate scope left) (fun a => ?_) s
    exact effect_scopesKept.keeps_bind (scopesKept_evaluate scope right) fun b => hexcept _
  | @right scope op left right _ s _ t hleft =>
    refine next_after_le_of_ok hleft ?_
    exact next_le_after_bind (evaluate scope right) (fun b => hexcept _) t
  | @operand scope op operand _ s =>
    exact next_le_after_bind (evaluate scope operand) (fun a => hexcept _) s
  | @arguments scope callee nodes g s hcallable =>
    rw [Point.after, Point.after, after_evaluate_call hcallable]
    exact next_le_after_bind _ (effect_scopesKept.keeps_call _) s
  | @call scope callee nodes g s values t hcallable hvalues =>
    rw [Point.after, Point.after, after_evaluate_call hcallable]
    exact next_after_le_of_ok hvalues (Nat.le_refl _)
  | @firstStatement scope last statement rest s =>
    exact next_le_after_bind (evaluate scope statement) (fun value => scopesKept_body scope value rest) s
  | laterStatements hstatement => exact next_after_le_of_ok hstatement (Nat.le_refl _)
  | @firstArgument scope node rest s =>
    refine next_le_after_bind (evaluate scope node) (fun value => ?_) s
    exact effect_scopesKept.keeps_bind (scopesKept_arguments scope rest) fun values => hpure _
  | @laterArguments scope node rest s value t hnode =>
    refine next_after_le_of_ok hnode ?_
    exact next_le_after_bind (evaluateAll Evaluation.call scope rest) (fun values => hpure _) t
  | closure hdepth hlive =>
    rw [Point.after, Point.after, after_call_closure hdepth hlive]
    exact Nat.le_refl _

section Calls

variable {outer inner : Point} {frame : ScopeId} (h : Calls outer frame inner)

include h

lemma Calls.frame_eq : frame = outer.session.store.next := by
  cases h
  rfl

lemma Calls.scope?_eq : inner.task.scope? = some frame := by
  cases h
  rfl

lemma Calls.enters : Enters outer inner := by
  cases h with
  | closure hdepth hlive => exact .closure hdepth hlive

lemma Calls.next_eq : inner.session.store.next = frame + 1 := by
  cases h
  exact next_enter _ _ _ _

lemma Calls.isLive_eq (other : ScopeId) :
    inner.session.store.isLive other = (frame == other || outer.session.store.isLive other) := by
  cases h
  exact isLive_enter _ _ _ _ other

lemma Calls.lt_next_after : frame < outer.after.store.next := by
  have hinner : frame < inner.session.store.next := by
    rw [h.next_eq]
    exact Nat.lt_succ_self frame
  exact Nat.lt_of_lt_of_le hinner (Nat.le_trans inner.scopesKept.2 h.enters.next_after_le)

end Calls

section Visits

variable {outer inner : Point} (h : Visits outer inner)

include h

lemma Visits.next_le : outer.session.store.next ≤ inner.session.store.next := by
  induction h with
  | refl => exact Nat.le_refl _
  | tail _ hstep ih =>
    obtain ⟨hkept, -⟩ | ⟨frame, hcalls⟩ := hstep.keeps_or_calls
    · exact Nat.le_trans ih hkept.2
    · rw [hcalls.next_eq, hcalls.frame_eq]
      exact Nat.le_succ_of_le ih

lemma Visits.next_after_le : inner.after.store.next ≤ outer.after.store.next := by
  induction h with
  | refl => exact Nat.le_refl _
  | tail _ hstep ih => exact Nat.le_trans hstep.next_after_le ih

/-- A scope that has its name when a point starts is there all the time or not at all. -/
theorem Visits.isLive_eq {scope : ScopeId} (hscope : scope < outer.session.store.next) :
    inner.session.store.isLive scope = outer.session.store.isLive scope := by
  induction h with
  | refl => rfl
  | tail hvisits hstep ih =>
    obtain ⟨hkept, -⟩ | ⟨frame, hcalls⟩ := hstep.keeps_or_calls
    · exact (hkept.1 scope).trans ih
    · -- the scope of the call is new
      have hlt := Nat.lt_of_lt_of_le hscope (Visits.next_le hvisits)
      have hne : (frame == scope) = false := by
        rw [hcalls.frame_eq, beq_eq_false_iff_ne]
        exact Nat.ne_of_gt hlt
      rw [hcalls.isLive_eq, hne, Bool.false_or, ih]

/-- What runs in a scope either inherits it or is part of the call that has made it. -/
theorem Visits.scope_inherited_or_made {scope : ScopeId} (hscope : inner.task.scope? = some scope) :
    outer.task.scope? = some scope ∨
      ∃ call body, Visits outer call ∧ Calls call scope body ∧ Visits body inner := by
  induction h with
  | refl => exact .inl hscope
  | @tail middle inner hvisits hstep ih =>
    obtain ⟨-, hsame⟩ | ⟨frame, hcalls⟩ := hstep.keeps_or_calls
    · obtain hinherited | ⟨call, body, hcall, hcalls, hbody⟩ := ih (hsame scope hscope)
      · exact .inl hinherited
      · exact .inr ⟨call, body, hcall, hcalls, hbody.tail hstep⟩
    · obtain rfl : frame = scope := by
        rw [hcalls.scope?_eq] at hscope
        exact Option.some.inj hscope
      exact .inr ⟨middle, inner, hvisits, hcalls, .refl⟩

end Visits

theorem Visits.isLive_scope {outer inner : Point} (h : Visits outer inner)
    (houter : ∀ scope, outer.task.scope? = some scope → outer.session.store.isLive scope = true)
    {scope : ScopeId} (hscope : inner.task.scope? = some scope) :
    inner.session.store.isLive scope = true := by
  obtain hinherited | ⟨call, body, -, hcalls, hbody⟩ := h.scope_inherited_or_made hscope
  · have hlive := houter scope hinherited
    rw [h.isLive_eq (Store.lt_next_of_isLive hlive), hlive]
  · have hlive : body.session.store.isLive scope = true := by
      rw [hcalls.isLive_eq, beq_self_eq_true, Bool.true_or]
    rw [hbody.isLive_eq (Store.lt_next_of_isLive hlive), hlive]

/-- `Sequel outer first second`: to do its task, `outer` starts `first` and, when this is done,
`second`. -/
inductive Sequel : Point → Point → Point → Prop
  | operands {scope op left right g s value t} (hleft : evaluate scope left s = .ok value t) :
      Sequel ⟨.evaluate scope (.binary op left right g), s⟩ ⟨.evaluate scope left, s⟩
        ⟨.evaluate scope right, t⟩
  | call {scope callee nodes g s values t}
      (hcallable : (s.store.get scope callee).isCallable = true)
      (hvalues : evaluateAll Evaluation.call scope nodes s = .ok values t) :
      Sequel ⟨.evaluate scope (.call callee nodes g), s⟩ ⟨.arguments scope nodes, s⟩
        ⟨.call (s.store.get scope callee) values, t⟩
  | statements {scope last statement rest s value t}
      (hstatement : evaluate scope statement s = .ok value t) :
      Sequel ⟨.body scope last (statement :: rest), s⟩ ⟨.evaluate scope statement, s⟩
        ⟨.body scope value rest, t⟩
  | arguments {scope node rest s value t} (hnode : evaluate scope node s = .ok value t) :
      Sequel ⟨.arguments scope (node :: rest), s⟩ ⟨.evaluate scope node, s⟩
        ⟨.arguments scope rest, t⟩

section Sequel

variable {outer first second : Point} (h : Sequel outer first second)

include h

lemma Sequel.enters_first : Enters outer first := by
  cases h with
  | operands => exact .left
  | call hcallable => exact .arguments hcallable
  | statements => exact .firstStatement
  | arguments => exact .firstArgument

lemma Sequel.session_second : second.session = first.after := by
  cases h with
  | operands hfirst | call _ hfirst | statements hfirst | arguments hfirst =>
    exact (after_of_ok hfirst).symm

end Sequel

/-- The point defines a function, and its value is this closure. -/
inductive Makes : Point → Closure → Prop
  | function {scope name params body g s t c}
      (h : evaluate scope (.function name params body g) s = .ok (.closure c) t) :
      Makes ⟨.evaluate scope (.function name params body g), s⟩ c
  | definition {scope callee arguments k right g s t c}
      (h : evaluate scope (.assignment .assign (.call callee arguments k) right g) s =
        .ok (.closure c) t) :
      Makes ⟨.evaluate scope (.assignment .assign (.call callee arguments k) right g), s⟩ c

lemma Makes.scope?_eq {point : Point} {c : Closure} (h : Makes point c) :
    point.task.scope? = some c.scope := by
  cases h with
  | @function scope name params body g s t c h =>
    have hvalue : ∃ t, evaluate scope (.function name params body g) s =
        .ok (.closure ⟨s.store.next, name.getD "function", params, body, scope⟩) t := by
      cases name <;> exact ⟨_, rfl⟩
    obtain ⟨t', hvalue⟩ := hvalue
    rw [hvalue] at h
    cases h
    rfl
  | @definition scope callee arguments k right g s t c h =>
    cases hparams : parameterNames arguments with
    | error error =>
      have hvalue : evaluate scope (.assignment .assign (.call callee arguments k) right g) s =
          .error error s := by
        rw [evaluate, evaluateWith, hparams]
        rfl
      rw [hvalue] at h
      cases h
    | ok params =>
      have hvalue : ∃ t, evaluate scope (.assignment .assign (.call callee arguments k) right g) s =
          .ok (.closure ⟨s.store.next, callee, params, right, scope⟩) t := by
        rw [evaluate, evaluateWith, hparams]
        exact ⟨_, rfl⟩
      obtain ⟨t', hvalue⟩ := hvalue
      rw [hvalue] at h
      cases h
      rfl

lemma inScope_ne_error (parent : ScopeId) (names : List String) (values : List Value)
    {body : ScopeId → Eval Value} (hbody : ∀ scope, Keeps (ScopesKept none) (body scope))
    (error : Error) (s : Session) : inScope parent names values body s ≠ .error error s := by
  -- a call that runs gives out a name, and one that is refused does not
  intro h
  have hafter : after (inScope parent names values body) s = s := by
    rw [after, h]
  have hkept := (hbody s.store.next (enter parent names values s).2).2
  rw [next_enter] at hkept
  rw [after_inScope] at hafter
  have hnext : (after (body s.store.next) (enter parent names values s).2).store.next =
      s.store.next :=
    congrArg (·.store.next) hafter
  omega

end Evaluation

namespace Session

open Evaluation

def afterSubmissions (sources : List String) : Session :=
  afterAll (sources.map .interpret)

lemma scopesKept_perform (operation : Operation) (session : Session) :
    ScopesKept none session (perform operation session) := by
  have hself := effect_scopesKept.refl none session
  cases operation with
  | interpret source =>
    rw [perform, after_interpret]
    split
    · exact scopesKept_evaluate globals _ { session with depth := 0 }
    · exact hself
  | evaluate scope node => exact scopesKept_evaluate scope node session
  | call function args => exact effect_scopesKept.keeps_call function args session
  | define name value => exact effect_scopesKept.define globals name value session
  | raise | takeSignals => exact hself

lemma scopesKept_foldl (operations : List Operation) (session : Session) :
    ScopesKept none session
      (operations.foldl (fun session operation => perform operation session) session) := by
  induction operations generalizing session with
  | nil => exact effect_scopesKept.refl none session
  | cons operation operations ih =>
    exact effect_scopesKept.trans (scopesKept_perform operation session) (ih _)

lemma isLive_afterSubmissions (sources : List String) (scope : ScopeId) :
    (afterSubmissions sources).store.isLive scope = (globals == scope) := by
  have hnew : new.store.isLive scope = (globals == scope) := Bool.or_false _
  rw [← hnew]
  exact (scopesKept_foldl _ new).1 scope

lemma afterSubmissions_concat (sources : List String) (source : String) :
    afterSubmissions (sources ++ [source]) =
      perform (.interpret source) (afterSubmissions sources) := by
  rw [afterSubmissions, afterSubmissions, afterAll, afterAll, List.map_append, List.foldl_append]
  rfl

lemma next_afterSubmissions_le (sources sources' : List String) :
    (afterSubmissions sources).store.next ≤ (afterSubmissions (sources ++ sources')).store.next := by
  rw [afterSubmissions, afterSubmissions, afterAll, afterAll, List.map_append, List.foldl_append]
  exact (scopesKept_foldl _ _).2

/-- Submission number `n` is a statement, and `root` is its evaluation. -/
def Starts (sources : List String) (n : Nat) (root : Point) : Prop :=
  ∃ source node, sources[n]? = some source ∧ parse source = .ok (some node) ∧
    root = ⟨.evaluate globals node, { afterSubmissions (sources.take n) with depth := 0 }⟩

/-- The evaluation of submission number `n` comes to the point. -/
def Reaches (sources : List String) (n : Nat) (point : Point) : Prop :=
  ∃ root, Starts sources n root ∧ Visits root point

/-- When the evaluation of submission number `n` comes to the point `now`, this point is done: it
belongs to an earlier submission or to a part that was done before a part that leads to `now`. -/
inductive Done (sources : List String) (n : Nat) (now : Point) : Point → Prop
  | submission {m point} (hm : m < n) (hpoint : Reaches sources m point) : Done sources n now point
  | sequel {root outer first second point} (hroot : Starts sources n root)
      (houter : Visits root outer) (hsequel : Sequel outer first second)
      (hpoint : Visits first point) (hnow : Visits second now) : Done sources n now point

/-- The scope belongs to a call that has returned. -/
def Returned (sources : List String) (n : Nat) (now : Point) (frame : ScopeId) : Prop :=
  ∃ call body, Calls call frame body ∧ Done sources n now call

section

variable {sources : List String} {n : Nat} {root now : Point}

lemma Starts.isLive_eq (h : Starts sources n root) (scope : ScopeId) :
    root.session.store.isLive scope = (globals == scope) := by
  obtain ⟨source, node, -, -, rfl⟩ := h
  exact isLive_afterSubmissions _ scope

lemma Starts.scope?_eq (h : Starts sources n root) : root.task.scope? = some globals := by
  obtain ⟨source, node, -, -, rfl⟩ := h
  rfl

lemma Starts.isLive_scope (h : Starts sources n root) {point : Point} (hpoint : Visits root point)
    {scope : ScopeId} (hscope : point.task.scope? = some scope) :
    point.session.store.isLive scope = true := by
  refine hpoint.isLive_scope (fun scope hscope => ?_) hscope
  rw [h.scope?_eq] at hscope
  cases hscope
  rw [h.isLive_eq, beq_self_eq_true]

lemma Starts.after_eq (h : Starts sources n root) :
    root.after = afterSubmissions (sources.take (n + 1)) := by
  obtain ⟨source, node, hsource, hparse, rfl⟩ := h
  rw [List.take_add_one, hsource, Option.toList_some, afterSubmissions_concat, perform,
    after_interpret, hparse]
  rfl

lemma Starts.next_after_le {m : Nat} {earlier : Point} (hearlier : Starts sources m earlier)
    (h : Starts sources n root) (hm : m < n) :
    earlier.after.store.next ≤ root.session.store.next := by
  obtain ⟨source, node, -, -, rfl⟩ := h
  rw [hearlier.after_eq]
  obtain ⟨k, rfl⟩ : ∃ k, n = m + 1 + k := Nat.exists_eq_add_of_le hm
  have htake := List.take_add (l := sources) (i := m + 1) (j := k)
  change _ ≤ (afterSubmissions (sources.take (m + 1 + k))).store.next
  rw [htake]
  exact next_afterSubmissions_le _ _

lemma globals_lt_next (h : Starts sources n root) : globals < root.session.store.next :=
  Store.lt_next_of_isLive (by rw [h.isLive_eq, beq_self_eq_true])

lemma Starts.frame_ne_globals (h : Starts sources n root) {call body : Point} {frame : ScopeId}
    (hcall : Visits root call) (hcalls : Calls call frame body) : frame ≠ globals := by
  have hlt := Nat.lt_of_lt_of_le (globals_lt_next h) hcall.next_le
  rw [hcalls.frame_eq]
  exact Nat.ne_of_gt hlt

/-- The scope of a call that has returned is gone. -/
theorem isLive_of_returned (hroot : Starts sources n root) (hnow : Visits root now)
    {frame : ScopeId} (h : Returned sources n now frame) : now.session.store.isLive frame = false := by
  obtain ⟨call, body, hcalls, hdone⟩ := h
  cases hdone with
  | @submission m _ hm hcall =>
    obtain ⟨earlier, hearlier, hcall⟩ := hcall
    have hlt : frame < root.session.store.next :=
      Nat.lt_of_lt_of_le hcalls.lt_next_after
        (Nat.le_trans hcall.next_after_le (hearlier.next_after_le hroot hm))
    rw [hnow.isLive_eq hlt, hroot.isLive_eq, beq_eq_false_iff_ne]
    exact (hearlier.frame_ne_globals hcall hcalls).symm
  | @sequel _ outer first second _ _ houter hsequel hcall hsecond =>
    -- the name is new when `first` starts and is given out when it is done
    have hlt : frame < second.session.store.next := by
      rw [hsequel.session_second]
      exact Nat.lt_of_lt_of_le hcalls.lt_next_after hcall.next_after_le
    have hle : first.session.store.next ≤ frame := by
      rw [hcalls.frame_eq]
      exact hcall.next_le
    rw [hsecond.isLive_eq hlt, hsequel.session_second, first.scopesKept.1, ← Bool.not_eq_true]
    exact fun hlive => Nat.not_le.mpr (Store.lt_next_of_isLive hlive) hle

/-- A scope in which something was done is there unless it belongs to a call that has returned. -/
theorem isLive_of_not_returned (hroot : Starts sources n root) (hnow : Visits root now)
    {point : Point} (hpoint : Done sources n now point) {scope : ScopeId}
    (hscope : point.task.scope? = some scope) (h : ¬Returned sources n now scope) :
    now.session.store.isLive scope = true := by
  cases hpoint with
  | @submission m _ hm hpoint =>
    obtain ⟨earlier, hearlier, hpoint⟩ := hpoint
    obtain hinherited | ⟨call, body, hcall, hcalls, -⟩ := hpoint.scope_inherited_or_made hscope
    · rw [hearlier.scope?_eq] at hinherited
      cases hinherited
      rw [hnow.isLive_eq (globals_lt_next hroot), hroot.isLive_eq, beq_self_eq_true]
    · exact absurd ⟨call, body, hcalls, .submission hm ⟨earlier, hearlier, hcall⟩⟩ h
  | @sequel root' outer first second _ hroot' houter hsequel hpoint hsecond =>
    obtain hinherited | ⟨call, body, hcall, hcalls, -⟩ := hpoint.scope_inherited_or_made hscope
    · have hlive : second.session.store.isLive scope = true := by
        rw [hsequel.session_second, first.scopesKept.1]
        exact hroot'.isLive_scope (houter.tail hsequel.enters_first) hinherited
      rw [hsecond.isLive_eq (Store.lt_next_of_isLive hlive), hlive]
    · exact absurd ⟨call, body, hcalls, .sequel hroot' houter hsequel hcall hsecond⟩ h

lemma isLive_of_underway {call body : Point} {frame : ScopeId} (hcalls : Calls call frame body)
    (hbody : Visits body now) : now.session.store.isLive frame = true := by
  have hlive : body.session.store.isLive frame = true := by
    rw [hcalls.isLive_eq, beq_self_eq_true, Bool.true_or]
  rw [hbody.isLive_eq (Store.lt_next_of_isLive hlive), hlive]

lemma scope_of_makes {c : Closure} {made : Point} (hmade : Done sources n now made)
    (hmakes : Makes made c) :
    c.scope = globals ∨ ∃ call body, Calls call c.scope body ∧ Visits body made := by
  have hfrom {m : Nat} {root : Point} (hroot : Starts sources m root) (hvisits : Visits root made) :
      c.scope = globals ∨ ∃ call body, Calls call c.scope body ∧ Visits body made := by
    obtain hinherited | ⟨call, body, -, hcalls, hbody⟩ :=
      hvisits.scope_inherited_or_made hmakes.scope?_eq
    · rw [hroot.scope?_eq] at hinherited
      exact .inl (Option.some.inj hinherited).symm
    · exact .inr ⟨call, body, hcalls, hbody⟩
  cases hmade with
  | submission _ hmade =>
    obtain ⟨root, hroot, hvisits⟩ := hmade
    exact hfrom hroot hvisits
  | sequel hroot houter hsequel hfirst _ =>
    exact hfrom hroot ((houter.tail hsequel.enters_first).trans hfirst)

end

/-- When an evaluation of a session comes to a point with fewer calls under way than allowed, calling
a closure that was made before fails at once, as expired, exactly if the scope it was made in belongs
to a call that has returned; otherwise its body is evaluated. The scope it was made in is the
outermost one, which belongs to no such call, or that of a call around the definition, which has not
returned as long as it is under way. -/
theorem call_expired_iff_returned {sources : List String} {n : Nat} {now made : Point} {c : Closure}
    (hnow : Reaches sources n now) (hdepth : now.session.depth < maxCallDepth)
    (hmakes : Makes made c) (hmade : Done sources n now made) (args : List Value) :
    (Evaluation.call (.closure c) args now.session =
        .error (.expiredClosure c.signature) now.session ↔ Returned sources n now c.scope) ∧
    (¬Returned sources n now c.scope →
      Evaluation.call (.closure c) args now.session =
        inScope c.scope c.params args (fun scope => Evaluation.evaluate scope c.body) now.session) ∧
    (c.scope = globals ∨ ∃ call body, Calls call c.scope body ∧ Visits body made) ∧
    (c.scope = globals → ¬Returned sources n now c.scope) ∧
    ∀ call body, Calls call c.scope body → Visits body now → ¬Returned sources n now c.scope := by
  obtain ⟨root, hroot, hnow⟩ := hnow
  have hcall := call_closure c args now.session
  rw [if_neg (Nat.not_le.mpr hdepth)] at hcall
  have hgone {frame : ScopeId} (hlive : now.session.store.isLive frame = true) :
      ¬Returned sources n now frame := by
    intro hreturned
    rw [isLive_of_returned hroot hnow hreturned] at hlive
    cases hlive
  have hruns (h : ¬Returned sources n now c.scope) : Evaluation.call (.closure c) args now.session =
      inScope c.scope c.params args (fun scope => Evaluation.evaluate scope c.body) now.session := by
    rw [hcall, if_pos (isLive_of_not_returned hroot hnow hmade hmakes.scope?_eq h)]
  refine ⟨⟨fun hexpired => ?_, fun hreturned => ?_⟩, hruns, scope_of_makes hmade hmakes,
    fun hglobals => hgone ?_, fun call body hcalls hbody => hgone (isLive_of_underway hcalls hbody)⟩
  · by_contra h
    rw [hruns h] at hexpired
    exact inScope_ne_error _ _ _ (fun scope => scopesKept_evaluate scope c.body) _ _ hexpired
  · rw [hcall, isLive_of_returned hroot hnow hreturned]
    rfl
  · rw [hglobals, hnow.isLive_eq (globals_lt_next hroot), hroot.isLive_eq, beq_self_eq_true]

/-- The tree of `g() = 1`. -/
def innerDefinition : Node :=
  .assignment .assign (.call "g" []) (.literal (.number Number.one))

/-- The tree of `f() = g() = 1`: every call of `f` defines `g`. -/
def outerDefinition : Node :=
  .statement (.assignment .assign (.call "f" []) innerDefinition)

/-- The tree of `do f() = g() = 1 f() 0 end`. -/
def outlivedBlock : Node :=
  .block [outerDefinition, .statement (.call "f" []), .statement (.literal (.number Number.zero))]

/-- When the last statement of the block starts, the closure `g` has expired. -/
theorem call_expired_outlivedBlock :
    ∃ now made c, Reaches ["do f() = g() = 1 f() 0 end"] 0 now ∧
      now.session.depth < maxCallDepth ∧ Makes made c ∧
      Done ["do f() = g() = 1 f() 0 end"] 0 now made ∧
      Evaluation.call (.closure c) [] now.session = .error (.expiredClosure "g()") now.session := by
  have hroot : Starts ["do f() = g() = 1 f() 0 end"] 0 ⟨.evaluate globals outlivedBlock, new⟩ :=
    ⟨_, _, rfl, by cbv, rfl⟩
  have houter : Visits ⟨.evaluate globals outlivedBlock, new⟩ _ :=
    (Relation.ReflTransGen.single .block).tail (.laterStatements rfl)
  have hnow := houter.tail (.laterStatements rfl)
  have hcall : Visits ⟨.evaluate globals (.statement (.call "f" [])),
      after (Evaluation.evaluate globals outerDefinition) new⟩ _ :=
    (Relation.ReflTransGen.single .statement).tail (.call rfl rfl)
  have hcalls : Calls ⟨.call (.closure ⟨1, "f", [], innerDefinition, globals⟩) [],
      after (Evaluation.evaluate globals outerDefinition) new⟩ _ _ :=
    .closure (by decide) rfl
  have hmade := Done.sequel hroot houter (.statements rfl) (hcall.tail hcalls.enters) .refl
  have hmakes (scope : ScopeId) (s : Session) : Makes ⟨.evaluate scope innerDefinition, s⟩
      ⟨s.store.next, "g", [], .literal (.number Number.one), scope⟩ :=
    .definition rfl
  refine ⟨_, _, _, ⟨_, hroot, hnow⟩, by decide, hmakes _ _, hmade, ?_⟩
  exact (call_expired_iff_returned ⟨_, hroot, hnow⟩ (by decide) (hmakes _ _) hmade []).1.mpr
    ⟨_, _, hcalls, .sequel hroot houter (.statements rfl) hcall .refl⟩

end Session

end ScriptConsole
