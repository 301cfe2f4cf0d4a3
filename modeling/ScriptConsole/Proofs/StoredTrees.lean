import ScriptConsole.Proofs.KnownScopes
import ScriptConsole.Proofs.RegularTrees

/-!
# The trees that a session stores

A session keeps trees as the bodies of closures and runs them at some later time. If all of them are
regular, and the tree that is evaluated is too, then this stays so wherever the evaluation comes
(`Visits.regular`). So targets of assignments are what they have to be everywhere, and an evaluation
ends with the errors of `Error.isOfEvaluation` only (`ends_evaluate`).
-/

namespace ScriptConsole

/-- The errors that the evaluation of regular trees ends with. -/
def Error.isOfEvaluation : Error → Bool
  | .malformed _ | .incomplete _ | .invalidAssignment _ | .unimplementedOperator _ => false
  | .unimplementedEvaluator kind => kind == "ArrayExpression"
  | .invalidIdentifier _ | .notAFunction _ | .compoundDefinition _ | .notANumber _
  | .divisionByZero | .overflow | .callDepth _ | .expiredClosure _ | .missingArgument _ => true

/-- If the value is a closure, its body is regular. -/
def Value.Regular : Value → Prop
  | .closure c => c.body.All Node.Regular
  | _ => True

/-- What is bound in the scopes is regular. -/
def Store.Regular (store : Store) : Prop :=
  ∀ entry ∈ store.frames, ∀ binding ∈ entry.2.bindings, binding.2.Regular

/-- A value with the property or an error of evaluation. -/
inductive Yields {α : Type} (P : α → Prop) : Except Error α → Prop
  | ok {value : α} (h : P value) : Yields P (.ok value)
  | error {error : Error} (h : error.isOfEvaluation = true) : Yields P (.error error)

lemma Yields.bind {α β : Type} {P : α → Prop} {Q : β → Prop} {result : Except Error α}
    {f : α → Except Error β} (h : Yields P result) (hf : ∀ value, P value → Yields Q (f value)) :
    Yields Q (result.bind f) := by
  cases h with
  | ok hvalue => exact hf _ hvalue
  | error herror => exact .error herror

namespace Value

lemma yields_toNumber (value : Value) : Yields (fun _ => True) value.toNumber := by
  cases value with
  | string s =>
    unfold toNumber
    dsimp only
    split
    · exact .ok trivial
    · split
      · exact .ok trivial
      · exact .error rfl
  | builtin | closure => exact .error rfl
  | _ => exact .ok trivial

lemma yields_ofExact (n : Int) : Yields Regular (ofExact n) := by
  unfold ofExact
  split
  · exact .ok trivial
  · exact .error rfl

lemma yields_arithmetic (op : BinaryOp) (a b : Number) : Yields Regular (arithmetic op a b) := by
  unfold arithmetic
  cases op with
  | add | subtract | multiply => exact yields_ofExact _
  | divide =>
    dsimp only
    split
    · exact .error rfl
    · exact yields_ofExact _
  | remainder =>
    dsimp only
    split
    · exact .error rfl
    · exact (yields_ofExact _).bind fun _ _ => yields_ofExact _

lemma yields_binary (op : BinaryOp) (left right : Value) : Yields Regular (binary op left right) := by
  unfold binary
  split
  · exact .ok trivial
  · refine (yields_toNumber left).bind fun a _ => ?_
    exact (yields_toNumber right).bind fun b _ => yields_arithmetic op a b

lemma yields_unary (op : UnaryOp) {value : Value} (h : value.Regular) :
    Yields Regular (unary op value) := by
  cases op with
  | plus => exact .ok h
  | minus => exact (yields_toNumber value).bind fun n _ => yields_ofExact _
  | not => exact .ok trivial

end Value

namespace Store.Regular

variable {store : Store}

lemma get (h : store.Regular) (scope : ScopeId) (name : String) :
    (store.get scope name).Regular := by
  unfold Store.get
  split
  · next value hfound =>
    obtain ⟨entry, hmem, hbound⟩ := exists_mem_of_find? hfound
    exact h entry hmem _ hbound
  · split
    · exact trivial
    · exact trivial

lemma define (h : store.Regular) {value : Value} (hvalue : value.Regular) (scope : ScopeId)
    (name : String) : (store.define scope name value).Regular := by
  intro entry hmem binding hbinding
  obtain ⟨⟨id, frame⟩, hold, rfl⟩ := List.mem_map.mp hmem
  by_cases hid : id = scope
  · simp only [if_pos hid] at hbinding
    obtain rfl | hbinding := Frame.mem_bind hbinding
    · exact hvalue
    · exact h _ hold _ hbinding
  · simp only [if_neg hid] at hbinding
    exact h _ hold _ hbinding

lemma defineAll (h : store.Regular) (scope : ScopeId) (names : List String) {values : List Value}
    (hvalues : ∀ value ∈ values, value.Regular) :
    (store.defineAll scope names values).Regular := by
  induction names generalizing store values with
  | nil => exact h
  | cons name names ih =>
    apply ih
    · apply h.define
      cases values with
      | nil => exact trivial
      | cons value values => exact hvalues value List.mem_cons_self
    · exact fun value hmem => hvalues value (List.mem_of_mem_tail hmem)

lemma push (h : store.Regular) (parent : Option ScopeId) : (store.push parent).2.Regular := by
  intro entry hmem binding hbinding
  obtain rfl | hmem := List.mem_cons.mp hmem
  · cases hbinding
  · exact h entry hmem binding hbinding

lemma release (h : store.Regular) (scope : ScopeId) : (store.release scope).Regular :=
  fun entry hmem => h entry (List.mem_filter.mp hmem).1

end Store.Regular

namespace Evaluation

variable {α β : Type}

/-- A computation has left a regular session, and a value with the property or an error of
evaluation. -/
inductive Ended (P : α → Prop) : EStateM.Result Error Session α → Prop
  | ok {value : α} {t : Session} (hstore : t.store.Regular) (hvalue : P value) :
      Ended P (.ok value t)
  | error {error : Error} {t : Session} (hstore : t.store.Regular)
      (herror : error.isOfEvaluation = true) : Ended P (.error error t)

/-- In a regular session the computation ends so. -/
def Ends (P : α → Prop) (x : Eval α) : Prop :=
  ∀ s, s.store.Regular → Ended P (x s)

variable {P : α → Prop} {Q : β → Prop}

lemma ends_pure {value : α} (h : P value) : Ends P (pure value) :=
  fun _ hs => .ok hs h

lemma ends_throw {error : Error} (h : error.isOfEvaluation = true) : Ends P (throw error) :=
  fun _ hs => .error hs h

lemma ends_bind {x : Eval α} {f : α → Eval β} (hx : Ends P x) (hf : ∀ value, P value → Ends Q (f value)) :
    Ends Q (x >>= f) := by
  intro s hs
  have hfirst := hx s hs
  simp only [bind, EStateM.bind]
  generalize x s = result at hfirst ⊢
  cases hfirst with
  | ok hstore hvalue => exact hf _ hvalue _ hstore
  | error hstore herror => exact .error hstore herror

lemma ends_ofExcept {result : Except Error α} (h : Yields P result) :
    Ends P (MonadExcept.ofExcept result) := by
  cases h with
  | ok hvalue => exact ends_pure hvalue
  | error herror => exact ends_throw herror

lemma ends_lookup (scope : ScopeId) (name : String) : Ends Value.Regular (lookup scope name) :=
  fun _ hs => .ok hs (hs.get scope name)

lemma ends_bound (scope : ScopeId) (name : String) (value : Value) (h : value.Regular) :
    Ends Value.Regular (do define scope name value; return value) :=
  fun _ hs => .ok (hs.define h scope name) h

lemma ends_makeClosure (scope : ScopeId) (name : String) (params : List String) {body : Node}
    (h : body.All Node.Regular) :
    Ends (fun c => c.body.All Node.Regular) (makeClosure scope name params body) :=
  fun _ hs => .ok hs h

lemma ends_definition (scope : ScopeId) (name : String) (params : List String) {body : Node}
    (h : body.All Node.Regular) :
    Ends Value.Regular (do
      let c ← makeClosure scope name params body
      define scope name (.closure c)
      return .closure c) :=
  ends_bind (ends_makeClosure scope name params h) fun c hc =>
    ends_bound scope name (.closure c) hc

lemma ends_callBuiltin (f : Builtin) (args : List Value) : Ends Value.Regular (callBuiltin f args) := by
  cases f with
  | abs =>
    cases args with
    | nil => exact ends_throw rfl
    | cons value rest =>
      exact ends_ofExcept ((Value.yields_toNumber value).bind fun n _ => Value.yields_ofExact _)
  | cls => exact fun _ hs => .ok hs trivial

lemma yields_parameterNames (arguments : List Node) :
    Yields (fun _ => True) (parameterNames arguments) := by
  induction arguments with
  | nil => exact .ok trivial
  | cons node rest ih =>
    cases node with
    | identifier name g =>
      rw [parameterNames]
      exact ih.bind fun _ _ => .ok trivial
    | _ => exact .error rfl

section Trees

variable {call : Value → List Value → Eval Value}

lemma ends_assignment (scope : ScopeId) (op : AssignOp) {left right : Node} {g : Bool}
    (hnode : (Node.assignment op left right g).All Node.Regular)
    (hright : Ends Value.Regular (evaluateWith call scope right)) :
    Ends Value.Regular (evaluateWith call scope (.assignment op left right g)) := by
  obtain ⟨⟨htarget, -⟩, -, hall⟩ := hnode
  -- a regular target leaves no way to the error about targets
  obtain ⟨name, k, rfl⟩ | ⟨callee, arguments, k, rfl⟩ := htarget
  · cases op with
    | assign =>
      rw [evaluateWith]
      exact ends_bind hright fun value hvalue => ends_bound scope name value hvalue
    | compound op =>
      rw [evaluateWith]
      refine ends_bind (ends_lookup scope name) fun current _ => ?_
      refine ends_bind hright fun operand _ => ?_
      exact ends_bind (ends_ofExcept (Value.yields_binary op current operand)) fun value hvalue =>
        ends_bound scope name value hvalue
  · cases op with
    | assign =>
      rw [evaluateWith]
      exact ends_bind (ends_ofExcept (yields_parameterNames arguments)) fun params _ =>
        ends_definition scope callee params hall
    | compound op => exact ends_throw rfl

mutual

/-- The evaluation of a regular tree ends so if the calls that it makes do. -/
lemma ends_evaluateWith
    (hcall : ∀ f args, f.Regular → (∀ value ∈ args, value.Regular) → Ends Value.Regular (call f args))
    (scope : ScopeId) (node : Node) (hnode : node.All Node.Regular) :
    Ends Value.Regular (evaluateWith call scope node) := by
  match node, hnode with
  | .identifier name _, _ => exact ends_lookup scope name
  | .literal value _, _ =>
    apply ends_pure
    cases value <;> trivial
  | .array _ _, _ => exact ends_throw rfl
  | .function name params body _, hnode =>
    rw [evaluateWith]
    cases name with
    | none =>
      exact ends_bind (ends_makeClosure scope _ params hnode.2) fun c hc =>
        ends_pure hc
    | some name => exact ends_definition scope name params hnode.2
  | .block body _, hnode => exact ends_evaluateBody hcall scope .null trivial body hnode.2
  | .statement inner _, hnode => exact ends_evaluateWith hcall scope inner hnode.2
  | .assignment op left right _, hnode =>
    exact ends_assignment scope op hnode (ends_evaluateWith hcall scope right hnode.2.2)
  | .binary op left right _, hnode =>
    rw [evaluateWith]
    refine ends_bind (ends_evaluateWith hcall scope left hnode.2.1) fun a _ => ?_
    refine ends_bind (ends_evaluateWith hcall scope right hnode.2.2) fun b _ => ?_
    exact ends_ofExcept (Value.yields_binary op a b)
  | .unary op operand _, hnode =>
    rw [evaluateWith]
    refine ends_bind (ends_evaluateWith hcall scope operand hnode.2) fun value hvalue => ?_
    exact ends_ofExcept (Value.yields_unary op hvalue)
  | .call callee arguments _, hnode =>
    rw [evaluateWith]
    refine ends_bind (ends_lookup scope callee) fun f hf => ?_
    by_cases hcallable : f.isCallable = true
    · rw [if_pos hcallable]
      exact ends_bind (ends_evaluateAll hcall scope arguments hnode.2) fun values hvalues =>
        hcall f values hf hvalues
    · rw [if_neg hcallable]
      exact ends_throw rfl

lemma ends_evaluateBody
    (hcall : ∀ f args, f.Regular → (∀ value ∈ args, value.Regular) → Ends Value.Regular (call f args))
    (scope : ScopeId) (last : Value) (hlast : last.Regular) (body : List Node)
    (hbody : Node.AllIn Node.Regular body) :
    Ends Value.Regular (evaluateBody call scope last body) := by
  match body, hbody with
  | [], _ => exact ends_pure hlast
  | statement :: rest, hbody =>
    rw [evaluateBody]
    exact ends_bind (ends_evaluateWith hcall scope statement hbody.1) fun value hvalue =>
      ends_evaluateBody hcall scope value hvalue rest hbody.2

lemma ends_evaluateAll
    (hcall : ∀ f args, f.Regular → (∀ value ∈ args, value.Regular) → Ends Value.Regular (call f args))
    (scope : ScopeId) (arguments : List Node) (hall : Node.AllIn Node.Regular arguments) :
    Ends (fun values => ∀ value ∈ values, value.Regular) (evaluateAll call scope arguments) := by
  match arguments, hall with
  | [], _ => exact ends_pure (List.forall_mem_nil _)
  | argument :: rest, hall =>
    rw [evaluateAll]
    refine ends_bind (ends_evaluateWith hcall scope argument hall.1) fun value hvalue => ?_
    refine ends_bind (ends_evaluateAll hcall scope rest hall.2) fun values hvalues => ?_
    exact ends_pure (List.forall_mem_cons.mpr ⟨hvalue, hvalues⟩)

end

end Trees

lemma regular_enter {s : Session} (hs : s.store.Regular) (parent : ScopeId) (names : List String)
    {values : List Value} (hvalues : ∀ value ∈ values, value.Regular) :
    (enter parent names values s).2.store.Regular :=
  (hs.push (some parent)).defineAll s.store.next names hvalues

lemma ends_inScope (parent : ScopeId) (names : List String) {values : List Value}
    (hvalues : ∀ value ∈ values, value.Regular) {body : ScopeId → Eval Value}
    (hbody : ∀ scope, Ends Value.Regular (body scope)) :
    Ends Value.Regular (inScope parent names values body) := by
  intro s hs
  have hrun := hbody (enter parent names values s).1 _ (regular_enter hs parent names hvalues)
  unfold inScope
  dsimp only
  generalize body (enter parent names values s).1 (enter parent names values s).2 = result at hrun ⊢
  cases hrun with
  | ok hstore hvalue => exact .ok (hstore.release _) hvalue
  | error hstore herror => exact .error (hstore.release _) herror

lemma ends_callWith (callsLeft : Nat) (f : Value) (args : List Value) (hf : f.Regular)
    (hargs : ∀ value ∈ args, value.Regular) : Ends Value.Regular (callWith callsLeft f args) := by
  induction callsLeft generalizing f args with
  | zero =>
    cases f with
    | builtin f => exact ends_callBuiltin f args
    | _ => exact ends_throw rfl
  | succ callsLeft ih =>
    cases f with
    | builtin f => exact ends_callBuiltin f args
    | closure c =>
      intro s hs
      have hbody := ends_inScope c.scope c.params hargs
        (fun scope => ends_evaluateWith ih scope c.body hf) s hs
      rw [callWith]
      change Ended Value.Regular ((if s.store.isLive c.scope then
          inScope c.scope c.params args fun scope => evaluateWith (callWith callsLeft) scope c.body
        else throw (.expiredClosure c.signature) : Eval Value) s)
      by_cases hlive : s.store.isLive c.scope = true
      · rw [if_pos hlive]
        exact hbody
      · rw [if_neg hlive]
        exact .error hs rfl
    | _ => exact ends_throw rfl

lemma ends_call (f : Value) (args : List Value) (hf : f.Regular)
    (hargs : ∀ value ∈ args, value.Regular) : Ends Value.Regular (Evaluation.call f args) :=
  fun s hs => ends_callWith (maxCallDepth - s.depth) f args hf hargs s hs

/-- In a regular session, the evaluation of a regular tree leaves a regular session and a regular
value, if it does not end with an error of evaluation. -/
theorem ends_evaluate (scope : ScopeId) {node : Node} (hnode : node.All Node.Regular) :
    Ends Value.Regular (evaluate scope node) :=
  ends_evaluateWith ends_call scope node hnode

/-- The trees that a task runs are regular. -/
def Task.Regular : Task → Prop
  | .evaluate _ node => node.All Node.Regular
  | .body _ last statements => last.Regular ∧ Node.AllIn Node.Regular statements
  | .arguments _ nodes => Node.AllIn Node.Regular nodes
  | .call function args => function.Regular ∧ ∀ value ∈ args, value.Regular

structure Point.Regular (point : Point) : Prop where
  store : point.session.store.Regular
  task : point.task.Regular

lemma Ended.regular_after {x : Eval α} {s : Session} (h : Ended P (x s)) :
    (after x s).store.Regular := by
  unfold after
  generalize x s = result at h ⊢
  cases h with
  | ok hstore _ => exact hstore
  | error hstore _ => exact hstore

lemma Ended.of_ok {x : Eval α} {s t : Session} {value : α} (h : Ended P (x s))
    (hresult : x s = .ok value t) : t.store.Regular ∧ P value := by
  rw [hresult] at h
  cases h with
  | ok hstore hvalue => exact ⟨hstore, hvalue⟩

/-- What a regular point enters is regular. -/
theorem Enters.regular {outer inner : Point} (h : Enters outer inner) (houter : outer.Regular) :
    inner.Regular := by
  obtain ⟨hs, htask⟩ := houter
  cases h with
  | block => exact ⟨hs, trivial, htask.2⟩
  | statement | operand | arguments => exact ⟨hs, htask.2⟩
  | assigned => exact ⟨hs, htask.2.2⟩
  | left => exact ⟨hs, htask.2.1⟩
  | right hleft =>
    have hended := (ends_evaluate _ htask.2.1 _ hs).of_ok hleft
    exact ⟨hended.1, htask.2.2⟩
  | @call scope callee nodes g s values t _ hvalues =>
    have hended := (ends_evaluateAll ends_call scope nodes htask.2 s hs).of_ok hvalues
    exact ⟨hended.1, hs.get scope callee, hended.2⟩
  | firstStatement => exact ⟨hs, htask.2.1⟩
  | laterStatements hstatement =>
    have hended := (ends_evaluate _ htask.2.1 _ hs).of_ok hstatement
    exact ⟨hended.1, hended.2, htask.2.2⟩
  | firstArgument => exact ⟨hs, htask.1⟩
  | laterArguments hnode =>
    have hended := (ends_evaluate _ htask.1 _ hs).of_ok hnode
    exact ⟨hended.1, htask.2⟩
  | @closure c args s _ _ => exact ⟨regular_enter hs c.scope c.params htask.2, htask.1⟩

theorem Visits.regular {outer inner : Point} (h : Visits outer inner) (houter : outer.Regular) :
    inner.Regular := by
  induction h with
  | refl => exact houter
  | tail _ hstep ih => exact hstep.regular ih

end Evaluation

namespace Session

/-- Submissions put parsed trees into a session and nothing else. -/
theorem regular_afterSubmissions (sources : List String) :
    (afterSubmissions sources).store.Regular := by
  induction sources using List.reverseRecOn with
  | nil =>
    intro entry hmem binding hbinding
    rw [List.mem_singleton.mp hmem] at hbinding
    cases hbinding
  | append_singleton sources source ih =>
    rw [afterSubmissions_concat, perform, after_interpret]
    split
    · next node hparse =>
      have hnode := (Parser.parse_eq_some_iff.mp hparse).derives_and_regular.2.2
      have hended := Evaluation.ends_evaluate globals hnode
        { afterSubmissions sources with depth := 0 } ih
      exact hended.regular_after
    · exact ih

end Session

end ScriptConsole
