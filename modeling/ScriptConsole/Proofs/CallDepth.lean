import Mathlib.Logic.Relation
import ScriptConsole.Proofs.Effects

/-!
# Calls inside calls

The session counts the calls that have not returned. Every evaluation leaves the count as it found it
(`effect_depthKept`), so what `callWith` counts down always agrees with the session's own count, and a
call unfolds into the evaluation of its body as long as fewer than `maxCallDepth` calls are under way
(`call_closure`). `Enters` lists what an evaluation runs on its way. It leads nowhere forever, and
the count stays within the limit wherever it leads.
-/

namespace ScriptConsole

namespace Evaluation

variable {α β : Type}

/-- As many calls are under way as before. -/
def DepthKept (_ : Option ScopeId) (s t : Session) : Prop :=
  t.depth = s.depth

/-- Every call that is counted in is counted out again. -/
theorem effect_depthKept : Effect DepthKept where
  refl _ _ := rfl
  trans hst htu := Eq.trans htu hst
  weaken _ h := h
  define _ _ _ _ := rfl
  fresh _ := rfl
  raise _ _ := rfl
  call {parent names values s t} h := by
    have ht : t.depth = s.depth + 1 := h
    change t.depth - 1 = s.depth
    omega

/-- Two computations are the same in every session with so many calls under way. -/
def AgreeAt (depth : Nat) (x y : Eval α) : Prop :=
  ∀ s, s.depth = depth → x s = y s

section

variable {depth : Nat} {call call' : Value → List Value → Eval Value}

lemma agreeAt_refl (x : Eval α) : AgreeAt depth x x :=
  fun _ _ => rfl

lemma AgreeAt.bind {x y : Eval α} {f g : α → Eval β} (hxy : AgreeAt depth x y)
    (hx : Keeps (DepthKept none) x) (hfg : ∀ value, AgreeAt depth (f value) (g value)) :
    AgreeAt depth (x >>= f) (y >>= g) := by
  intro s hs
  have hkept := hx s
  unfold after at hkept
  change EStateM.bind x f s = EStateM.bind y g s
  unfold EStateM.bind
  rw [← hxy s hs]
  cases hresult : x s with
  | ok value t =>
    rw [hresult] at hkept
    exact hfg value t (Eq.trans hkept hs)
  | error error t => rfl

mutual

/-- An evaluation makes its calls at the depth at which it runs, so only these matter. -/
lemma agreeAt_evaluateWith (hcall : ∀ f args, AgreeAt depth (call f args) (call' f args))
    (hkeeps : ∀ f args, Keeps (DepthKept none) (call f args)) (scope : ScopeId)
    (node : Node) : AgreeAt depth (evaluateWith call scope node) (evaluateWith call' scope node) := by
  have hkept (node : Node) : Keeps (DepthKept none) (evaluateWith call scope node) :=
    effect_depthKept.keeps_evaluateWith hkeeps scope node
  match node with
  | .identifier .. | .literal .. | .array .. | .function .. => exact agreeAt_refl _
  | .block body _ => exact agreeAt_evaluateBody hcall hkeeps scope .null body
  | .statement inner _ => exact agreeAt_evaluateWith hcall hkeeps scope inner
  | .assignment op left right _ =>
    have hright := agreeAt_evaluateWith hcall hkeeps scope right
    cases left with
    | identifier name =>
      cases op with
      | assign =>
        rw [evaluateWith, evaluateWith]
        exact hright.bind (hkept right) fun value => agreeAt_refl _
      | compound op =>
        rw [evaluateWith, evaluateWith]
        refine (agreeAt_refl _).bind (effect_depthKept.keeps_lookup scope name) fun current => ?_
        exact hright.bind (hkept right) fun value => agreeAt_refl _
    | call callee arguments => cases op <;> exact agreeAt_refl _
    | _ => cases op <;> exact agreeAt_refl _
  | .binary op left right _ =>
    rw [evaluateWith, evaluateWith]
    refine (agreeAt_evaluateWith hcall hkeeps scope left).bind (hkept left) fun a => ?_
    exact (agreeAt_evaluateWith hcall hkeeps scope right).bind (hkept right) fun b => agreeAt_refl _
  | .unary op operand _ =>
    rw [evaluateWith, evaluateWith]
    exact (agreeAt_evaluateWith hcall hkeeps scope operand).bind (hkept operand) fun a => agreeAt_refl _
  | .call callee arguments _ =>
    rw [evaluateWith, evaluateWith]
    refine (agreeAt_refl _).bind (effect_depthKept.keeps_lookup scope callee) fun function => ?_
    split
    · exact (agreeAt_evaluateAll hcall hkeeps scope arguments).bind
        (effect_depthKept.keeps_evaluateAll hkeeps scope arguments) fun values => hcall function values
    · exact agreeAt_refl _

lemma agreeAt_evaluateBody (hcall : ∀ f args, AgreeAt depth (call f args) (call' f args))
    (hkeeps : ∀ f args, Keeps (DepthKept none) (call f args)) (scope : ScopeId)
    (last : Value) (body : List Node) :
    AgreeAt depth (evaluateBody call scope last body) (evaluateBody call' scope last body) := by
  match body with
  | [] => exact agreeAt_refl _
  | statement :: rest =>
    rw [evaluateBody, evaluateBody]
    exact (agreeAt_evaluateWith hcall hkeeps scope statement).bind
      (effect_depthKept.keeps_evaluateWith hkeeps scope statement) fun value =>
        agreeAt_evaluateBody hcall hkeeps scope value rest

lemma agreeAt_evaluateAll (hcall : ∀ f args, AgreeAt depth (call f args) (call' f args))
    (hkeeps : ∀ f args, Keeps (DepthKept none) (call f args)) (scope : ScopeId)
    (arguments : List Node) :
    AgreeAt depth (evaluateAll call scope arguments) (evaluateAll call' scope arguments) := by
  match arguments with
  | [] => exact agreeAt_refl _
  | argument :: rest =>
    rw [evaluateAll, evaluateAll]
    refine (agreeAt_evaluateWith hcall hkeeps scope argument).bind
      (effect_depthKept.keeps_evaluateWith hkeeps scope argument) fun value => ?_
    exact (agreeAt_evaluateAll hcall hkeeps scope rest).bind
      (effect_depthKept.keeps_evaluateAll hkeeps scope rest) fun values => agreeAt_refl _

end

end

lemma inScope_congr {parent : ScopeId} {names : List String} {values : List Value}
    {body body' : ScopeId → Eval Value} {s : Session}
    (h : body (enter parent names values s).1 (enter parent names values s).2 =
      body' (enter parent names values s).1 (enter parent names values s).2) :
    inScope parent names values body s = inScope parent names values body' s := by
  unfold inScope
  dsimp only
  rw [h]

/-- A closure is called by evaluating its body in a scope of its own, unless too many calls are under
way or the scope it was defined in is gone. -/
theorem call_closure (c : Closure) (args : List Value) (s : Session) :
    call (.closure c) args s =
      if maxCallDepth ≤ s.depth then .error (.callDepth maxCallDepth) s
      else if s.store.isLive c.scope then
        inScope c.scope c.params args (fun scope => evaluate scope c.body) s
      else .error (.expiredClosure c.signature) s := by
  unfold call
  by_cases hdepth : maxCallDepth ≤ s.depth
  · rw [if_pos hdepth, Nat.sub_eq_zero_of_le hdepth]
    rfl
  · obtain ⟨callsLeft, hcalls⟩ : ∃ n, maxCallDepth - s.depth = n + 1 :=
      Nat.exists_eq_add_one.mpr (by omega)
    rw [if_neg hdepth, hcalls]
    -- the body runs with one more call under way and one fewer call left
    have hbody (scope : ScopeId) : AgreeAt (s.depth + 1)
        (evaluateWith (callWith callsLeft) scope c.body) (evaluate scope c.body) := by
      refine agreeAt_evaluateWith (fun f values t ht => ?_)
        (effect_depthKept.keeps_callWith callsLeft) scope c.body
      have hleft : maxCallDepth - t.depth = callsLeft := by omega
      rw [call, hleft]
    change (if s.store.isLive c.scope then
        inScope c.scope c.params args fun scope => evaluateWith (callWith callsLeft) scope c.body
      else throw (.expiredClosure c.signature) : Eval Value) s = _
    by_cases hlive : s.store.isLive c.scope = true
    · rw [if_pos hlive, if_pos hlive]
      exact inScope_congr (hbody _ _ rfl)
    · rw [if_neg hlive, if_neg hlive]
      rfl

/-- What a part of an evaluation does. -/
inductive Task
  | evaluate (scope : ScopeId) (node : Node)
  | body (scope : ScopeId) (last : Value) (statements : List Node)
  | arguments (scope : ScopeId) (nodes : List Node)
  | call (function : Value) (args : List Value)

/-- A part of an evaluation where it starts. -/
structure Point where
  task : Task
  session : Session

/-- `Enters outer inner`: to do its task, `outer` starts `inner`. -/
inductive Enters : Point → Point → Prop
  | block {scope body g s} :
      Enters ⟨.evaluate scope (.block body g), s⟩ ⟨.body scope .null body, s⟩
  | statement {scope inner g s} :
      Enters ⟨.evaluate scope (.statement inner g), s⟩ ⟨.evaluate scope inner, s⟩
  | assigned {scope op name k right g s} :
      Enters ⟨.evaluate scope (.assignment op (.identifier name k) right g), s⟩
        ⟨.evaluate scope right, s⟩
  | left {scope op left right g s} :
      Enters ⟨.evaluate scope (.binary op left right g), s⟩ ⟨.evaluate scope left, s⟩
  | right {scope op left right g s value t} (hleft : evaluate scope left s = .ok value t) :
      Enters ⟨.evaluate scope (.binary op left right g), s⟩ ⟨.evaluate scope right, t⟩
  | operand {scope op operand g s} :
      Enters ⟨.evaluate scope (.unary op operand g), s⟩ ⟨.evaluate scope operand, s⟩
  | arguments {scope callee nodes g s} (hcallable : (s.store.get scope callee).isCallable = true) :
      Enters ⟨.evaluate scope (.call callee nodes g), s⟩ ⟨.arguments scope nodes, s⟩
  | call {scope callee nodes g s values t}
      (hcallable : (s.store.get scope callee).isCallable = true)
      (hvalues : evaluateAll Evaluation.call scope nodes s = .ok values t) :
      Enters ⟨.evaluate scope (.call callee nodes g), s⟩ ⟨.call (s.store.get scope callee) values, t⟩
  | firstStatement {scope last statement rest s} :
      Enters ⟨.body scope last (statement :: rest), s⟩ ⟨.evaluate scope statement, s⟩
  | laterStatements {scope last statement rest s value t}
      (hstatement : evaluate scope statement s = .ok value t) :
      Enters ⟨.body scope last (statement :: rest), s⟩ ⟨.body scope value rest, t⟩
  | firstArgument {scope node rest s} :
      Enters ⟨.arguments scope (node :: rest), s⟩ ⟨.evaluate scope node, s⟩
  | laterArguments {scope node rest s value t} (hnode : evaluate scope node s = .ok value t) :
      Enters ⟨.arguments scope (node :: rest), s⟩ ⟨.arguments scope rest, t⟩
  | closure {c args s} (hdepth : s.depth < maxCallDepth) (hlive : s.store.isLive c.scope = true) :
      Enters ⟨.call (.closure c) args, s⟩
        ⟨.evaluate (enter c.scope c.params args s).1 c.body, (enter c.scope c.params args s).2⟩

/-- How much of the tree a task has before it. -/
noncomputable def Task.size : Task → Nat
  | .evaluate _ node => sizeOf node
  | .body _ _ statements => sizeOf statements
  | .arguments _ nodes => sizeOf nodes
  | .call _ _ => 0

lemma depth_of_ok {x : Eval α} {s t : Session} {value : α} (hx : Keeps (DepthKept none) x)
    (h : x s = .ok value t) : t.depth = s.depth := by
  have hkept : (after x s).depth = s.depth := hx s
  rwa [after, h] at hkept

/-- A point is entered with less of the tree before it and as many calls under way, or with one more
call under way, within the limit. -/
theorem Enters.decreases {outer inner : Point} (h : Enters outer inner) :
    (inner.session.depth = outer.session.depth ∧ inner.task.size < outer.task.size) ∨
      (inner.session.depth = outer.session.depth + 1 ∧ inner.session.depth ≤ maxCallDepth) := by
  have hevaluate (scope : ScopeId) (node : Node) : Keeps (DepthKept none) (evaluate scope node) :=
    effect_depthKept.keeps_evaluate scope node
  have hall (scope : ScopeId) (nodes : List Node) :
      Keeps (DepthKept none) (evaluateAll Evaluation.call scope nodes) :=
    effect_depthKept.keeps_evaluateAll effect_depthKept.keeps_call scope nodes
  have hlist (node : Node) (nodes : List Node) :
      sizeOf node < sizeOf (node :: nodes) ∧ sizeOf nodes < sizeOf (node :: nodes) := by
    rw [List.cons.sizeOf_spec]
    omega
  cases h with
  | block | statement | assigned | left | operand | arguments =>
    refine .inl ⟨rfl, ?_⟩
    simp only [Task.size, Node.block.sizeOf_spec, Node.statement.sizeOf_spec,
      Node.assignment.sizeOf_spec, Node.binary.sizeOf_spec, Node.unary.sizeOf_spec,
      Node.call.sizeOf_spec]
    omega
  | right hleft =>
    refine .inl ⟨depth_of_ok (hevaluate _ _) hleft, ?_⟩
    simp only [Task.size, Node.binary.sizeOf_spec]
    omega
  | call _ hvalues =>
    refine .inl ⟨depth_of_ok (hall _ _) hvalues, ?_⟩
    simp only [Task.size, Node.call.sizeOf_spec]
    omega
  | firstStatement => exact .inl ⟨rfl, (hlist _ _).1⟩
  | laterStatements hstatement => exact .inl ⟨depth_of_ok (hevaluate _ _) hstatement, (hlist _ _).2⟩
  | firstArgument => exact .inl ⟨rfl, (hlist _ _).1⟩
  | laterArguments hnode => exact .inl ⟨depth_of_ok (hevaluate _ _) hnode, (hlist _ _).2⟩
  | closure hdepth _ => exact .inr ⟨rfl, hdepth⟩

/-- The calls that may still be made inside each other come first, then what is left of the tree. -/
noncomputable def Point.measure (point : Point) : Nat × Nat :=
  (maxCallDepth - point.session.depth, point.task.size)

/-- No evaluation enters points forever. -/
theorem wellFounded_enters : WellFounded fun inner outer => Enters outer inner := by
  have hwf := InvImage.wf Point.measure (Prod.lex Nat.lt_wfRel Nat.lt_wfRel).wf
  refine Subrelation.wf (fun {inner outer} h => ?_) hwf
  obtain ⟨hdepth, hsize⟩ | ⟨hdepth, hlimit⟩ := h.decreases
  · have hcalls : inner.measure.1 = outer.measure.1 := by
      rw [Point.measure, Point.measure, hdepth]
    exact Prod.lex_def.mpr (.inr ⟨hcalls, hsize⟩)
  · have hcalls : inner.measure.1 < outer.measure.1 := by
      simp only [Point.measure]
      omega
    exact Prod.lex_def.mpr (.inl hcalls)

/-- What a point leads to. -/
def Visits : Point → Point → Prop :=
  Relation.ReflTransGen Enters

/-- From within the limit, no point is beyond it. -/
theorem Visits.depth_le {outer inner : Point} (h : Visits outer inner)
    (houter : outer.session.depth ≤ maxCallDepth) : inner.session.depth ≤ maxCallDepth := by
  induction h with
  | refl => exact houter
  | tail _ hstep ih =>
    obtain ⟨hdepth, -⟩ | ⟨-, hlimit⟩ := hstep.decreases
    · omega
    · exact hlimit

end Evaluation

namespace Session

open Evaluation (after)

/-- What a host can do with a session. -/
inductive Operation
  | interpret (source : String)
  | evaluate (scope : ScopeId) (node : Node)
  | call (function : Value) (args : List Value)
  | define (name : String) (value : Value)
  | raise (signal : Signal)
  | takeSignals

/-- The session after an operation, whether it succeeds or fails. -/
def perform : Operation → Session → Session
  | .interpret source, session => after (interpret source) session
  | .evaluate scope node, session => after (Evaluation.evaluate scope node) session
  | .call function args, session => after (call function args) session
  | .define name value, session => session.define name value
  | .raise signal, session => after (Evaluation.raise signal) session
  | .takeSignals, session => session.takeSignals.2

/-- The session after operations on a new one. -/
def afterAll (operations : List Operation) : Session :=
  operations.foldl (fun session operation => perform operation session) new

/-- A submission that is a statement is evaluated outside of any call; others change nothing. -/
lemma after_interpret (source : String) (session : Session) :
    after (interpret source) session =
      match parse source with
      | .ok (some node) => after (Evaluation.evaluate globals node) { session with depth := 0 }
      | _ => session := by
  unfold interpret
  cases parse source with
  | error error => rfl
  | ok tree =>
    cases tree with
    | none => rfl
    | some node =>
      exact Evaluation.after_map some (Evaluation.evaluate globals node) { session with depth := 0 }

lemma depth_perform {session : Session} (h : session.depth = 0) (operation : Operation) :
    (perform operation session).depth = 0 := by
  cases operation with
  | interpret source =>
    rw [perform, after_interpret]
    split
    · exact Evaluation.effect_depthKept.keeps_evaluate globals _ _
    · exact h
  | evaluate scope node => exact (Evaluation.effect_depthKept.keeps_evaluate scope node session).trans h
  | call function args => exact (Evaluation.effect_depthKept.keeps_call function args session).trans h
  | define | raise | takeSignals => exact h

/-- Between the operations on a session no call is under way. -/
theorem depth_afterAll (operations : List Operation) : (afterAll operations).depth = 0 := by
  have hfold (session : Session) (h : session.depth = 0) :
      (operations.foldl (fun session operation => perform operation session) session).depth = 0 := by
    induction operations generalizing session with
    | nil => exact h
    | cons operation operations ih => exact ih _ (depth_perform h operation)
  exact hfold new rfl

end Session

namespace Evaluation

/-- Outside of any call, an evaluation may make calls up to the limit. -/
lemma evaluate_of_depth_zero {s : Session} (h : s.depth = 0) (scope : ScopeId) (node : Node) :
    evaluate scope node s = evaluateWith (callWith maxCallDepth) scope node s := by
  have hcall (f : Value) (args : List Value) : AgreeAt 0 (call f args) (callWith maxCallDepth f args) := by
    intro t ht
    rw [call, ht]
    rfl
  exact agreeAt_evaluateWith hcall effect_depthKept.keeps_call scope node s h

/-- Evaluation comes to an end and keeps account of the calls under way. A call of a closure evaluates
its body unless the limit is reached, and entering points this way never goes on forever. The count
is the same after an evaluation or a call as before, whether they succeed or fail, and it never
exceeds the limit on the way. So between operations it is zero, and whatever has failed before, an
evaluation may make calls up to the limit. -/
theorem evaluation_ends_within_limit :
    (∀ c args s, call (.closure c) args s =
      if maxCallDepth ≤ s.depth then .error (.callDepth maxCallDepth) s
      else if s.store.isLive c.scope then
        inScope c.scope c.params args (fun scope => evaluate scope c.body) s
      else .error (.expiredClosure c.signature) s) ∧
    (WellFounded fun inner outer => Enters outer inner) ∧
    (∀ scope node s, (after (evaluate scope node) s).depth = s.depth) ∧
    (∀ f args s, (after (call f args) s).depth = s.depth) ∧
    (∀ outer inner, Visits outer inner → outer.session.depth ≤ maxCallDepth →
      inner.session.depth ≤ maxCallDepth) ∧
    ∀ operations, (Session.afterAll operations).depth = 0 ∧
      ∀ scope node, evaluate scope node (Session.afterAll operations) =
        evaluateWith (callWith maxCallDepth) scope node (Session.afterAll operations) := by
  refine ⟨call_closure, wellFounded_enters, effect_depthKept.keeps_evaluate,
    effect_depthKept.keeps_call, fun _ _ h => h.depth_le, fun operations => ?_⟩
  have hdepth := Session.depth_afterAll operations
  exact ⟨hdepth, evaluate_of_depth_zero hdepth⟩

end Evaluation

end ScriptConsole
