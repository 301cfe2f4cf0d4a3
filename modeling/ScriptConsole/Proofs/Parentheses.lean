import ScriptConsole.Proofs.Lockstep
import ScriptConsole.Proofs.Regrouping

/-!
# Parentheses do not matter to evaluation

A tree remembers which of its nodes were written between parentheses, and closures keep such trees in
the scopes of a session. `Session.plain` takes these marks away everywhere. To evaluate a tree and
then to take the marks away is the same as to evaluate the tree without marks in a session without
marks (`erases_evaluate`). Only the message about a text that is no name prints a tree, so only this
text may differ. So trees and sessions that differ in marks alone give the same results
(`evaluate_same_of_plain_eq`).
-/

namespace ScriptConsole

def Closure.plain (c : Closure) : Closure :=
  { c with body := c.body.plain }

def Value.plain (value : Value) : Value :=
  match value with
  | .closure c => .closure c.plain
  | other => other

def Frame.plain (frame : Frame) : Frame :=
  { frame with bindings := frame.bindings.map fun (name, value) => (name, value.plain) }

def Store.plain (store : Store) : Store :=
  { store with
    frames := store.frames.map fun (id, frame) => (id, frame.plain)
    sorted := List.pairwise_map.mpr store.sorted
    below := List.forall_mem_map.mpr store.below }

/-- The session without any marks of parentheses in its closures. -/
def Session.plain (session : Session) : Session :=
  { session with store := session.store.plain }

/-- The same error, but for a text that cannot be used as a name. -/
inductive Error.Alike : Error → Error → Prop
  | same (e : Error) : Alike e e
  | invalidIdentifier (text other : String) :
      Alike (.invalidIdentifier text) (.invalidIdentifier other)

namespace Error.Alike

variable {e f g : Error}

lemma symm (h : e.Alike f) : f.Alike e := by
  cases h with
  | same => exact .same e
  | invalidIdentifier text other => exact .invalidIdentifier other text

lemma trans (hef : e.Alike f) (hfg : f.Alike g) : e.Alike g := by
  cases hef with
  | same => exact hfg
  | invalidIdentifier text other =>
    cases hfg with
    | same => exact .invalidIdentifier text other
    | invalidIdentifier _ third => exact .invalidIdentifier text third

end Error.Alike

namespace Value

lemma plain_ofLiteral (literal : Literal) : (ofLiteral literal).plain = ofLiteral literal := by
  cases literal <;> rfl

/-- A closure is called by its signature in all messages, and that has no marks. -/
lemma signature_eq_of_plain (c d : Closure) (h : d = c.plain) : c.signature = d.signature := by
  rw [h]
  rfl

lemma linked_plain (v : Value) : Linked (fun c d => d = c.plain) v v.plain := by
  cases v with
  | number n => exact .number n
  | string s => exact .string s
  | bool b => exact .bool b
  | null => exact .null
  | builtin f => exact .builtin f
  | closure c => exact .closure rfl

lemma Linked.eq_plain {v v' : Value} (h : Linked (fun c d => d = c.plain) v v') :
    v' = v.plain := by
  cases h with
  | closure h => rw [h]; rfl
  | _ => rfl

end Value

namespace Store

lemma ext_frames {s t : Store} (hframes : s.frames = t.frames) (hnext : s.next = t.next) :
    s = t := by
  cases s
  cases t
  cases hframes
  cases hnext
  rfl

lemma plain_bind (name : String) (value : Value) (bindings : List (String × Value)) :
    (Frame.bind name value bindings).map (fun (name, value) => (name, value.plain)) =
      Frame.bind name value.plain (bindings.map fun (name, value) => (name, value.plain)) := by
  induction bindings with
  | nil => rfl
  | cons entry rest ih =>
    obtain ⟨other, old⟩ := entry
    by_cases hname : other = name
    · simp [Frame.bind, hname]
    · simp [Frame.bind, hname, ih]

lemma plain_define (store : Store) (scope : ScopeId) (name : String) (value : Value) :
    (store.define scope name value).plain = store.plain.define scope name value.plain := by
  apply ext_frames
  · simp only [plain, define, List.map_map]
    apply List.map_congr_left
    rintro ⟨id, frame⟩ -
    by_cases hid : id = scope
    · simp [hid, Frame.plain, Frame.define, plain_bind]
    · simp [hid]
  · rfl

lemma plain_defineAll (store : Store) (scope : ScopeId) (names : List String) (values : List Value) :
    (store.defineAll scope names values).plain =
      store.plain.defineAll scope names (values.map Value.plain) := by
  induction names generalizing store values with
  | nil => rfl
  | cons name names ih =>
    rw [defineAll, defineAll, ih, plain_define, List.map_tail]
    cases values <;> rfl

lemma plain_release (store : Store) (scope : ScopeId) :
    (store.release scope).plain = store.plain.release scope := by
  apply ext_frames
  · simp only [plain, release, List.filter_map]
    rfl
  · rfl

lemma isLive_plain (store : Store) (scope : ScopeId) :
    store.plain.isLive scope = store.isLive scope := by
  simp only [isLive, plain, List.any_map]
  rfl

lemma get?_plain (frame : Frame) (name : String) :
    frame.plain.get? name = (frame.get? name).map Value.plain := by
  unfold Frame.get? Frame.plain
  dsimp only
  induction frame.bindings with
  | nil => rfl
  | cons entry rest ih =>
    obtain ⟨other, value⟩ := entry
    simp only [List.map_cons, List.lookup_cons]
    cases name == other with
    | true => rfl
    | false => exact ih

lemma find?_plain (frames : List (ScopeId × Frame)) (scope : ScopeId) (name : String) :
    find? (frames.map fun (id, frame) => (id, frame.plain)) scope name =
      (find? frames scope name).map Value.plain := by
  induction frames generalizing scope with
  | nil => rfl
  | cons entry older ih =>
    obtain ⟨id, frame⟩ := entry
    rw [List.map_cons, find?, find?]
    by_cases hid : id = scope
    · rw [if_pos hid, if_pos hid, get?_plain]
      cases frame.get? name with
      | some value => rfl
      | none =>
        change frame.parent.bind _ = (frame.parent.bind _).map _
        cases frame.parent with
        | none => rfl
        | some parent => exact ih parent
    · rw [if_neg hid, if_neg hid, ih]

lemma get_plain (store : Store) (scope : ScopeId) (name : String) :
    store.plain.get scope name = (store.get scope name).plain := by
  unfold get plain
  rw [find?_plain]
  cases find? store.frames scope name with
  | some value => rfl
  | none => cases Builtin.ofName? name <;> rfl

end Store

namespace Evaluation

variable {α β γ δ : Type}

/-- The second result is the first one without marks. -/
inductive Erased (erase : α → β) :
    EStateM.Result Error Session α → EStateM.Result Error Session β → Prop
  | ok {a : α} {b : β} {s t : Session} (hvalue : erase a = b) (hsession : s.plain = t) :
      Erased erase (.ok a s) (.ok b t)
  | error {e e' : Error} {s t : Session} (herror : e.Alike e') (hsession : s.plain = t) :
      Erased erase (.error e s) (.error e' t)

/-- The second computation does without marks what the first one does. -/
def Erases (erase : α → β) (x : Eval α) (y : Eval β) : Prop :=
  ∀ s, Erased erase (x s) (y s.plain)

lemma erases_pure (erase : α → β) (a : α) : Erases erase (pure a) (pure (erase a)) :=
  fun _ => .ok rfl rfl

lemma erases_throw {erase : α → β} (e : Error) : Erases erase (throw e) (throw e) :=
  fun _ => .error (.same e) rfl

lemma erases_bind {erase : α → β} {erase' : γ → δ} {x : Eval α} {y : Eval β} {f : α → Eval γ}
    {g : β → Eval δ} (hxy : Erases erase x y) (hfg : ∀ a, Erases erase' (f a) (g (erase a))) :
    Erases erase' (x >>= f) (y >>= g) := by
  intro s
  have hfirst := hxy s
  simp only [bind, EStateM.bind]
  generalize x s = r at hfirst ⊢
  generalize y s.plain = r' at hfirst ⊢
  cases hfirst with
  | ok hvalue hsession =>
    subst hvalue hsession
    exact hfg _ _
  | error herror hsession => exact .error herror hsession

lemma erases_ofExcept {r r' : Except Error Value}
    (h : ExceptLinked (fun c d => d = c.plain) r r') :
    Erases Value.plain (MonadExcept.ofExcept r) (MonadExcept.ofExcept r') := by
  cases h with
  | ok h =>
    rw [h.eq_plain]
    exact erases_pure _ _
  | error => exact erases_throw _

lemma erases_lookup (scope : ScopeId) (name : String) :
    Erases Value.plain (lookup scope name) (lookup scope name) :=
  fun s => .ok (Store.get_plain s.store scope name).symm rfl

lemma erases_bound (scope : ScopeId) (name : String) (value : Value) :
    Erases Value.plain (do define scope name value; return value)
      (do define scope name value.plain; return value.plain) := by
  intro s
  apply Erased.ok rfl
  rw [Session.plain, Store.plain_define]
  rfl

lemma erases_makeClosure (scope : ScopeId) (name : String) (params : List String) (body : Node) :
    Erases Closure.plain (makeClosure scope name params body)
      (makeClosure scope name params body.plain) :=
  fun _ => .ok rfl rfl

lemma erases_definition (scope : ScopeId) (name : String) (params : List String) (body : Node) :
    Erases Value.plain
      (do
        let c ← makeClosure scope name params body
        define scope name (.closure c)
        return .closure c)
      (do
        let c ← makeClosure scope name params body.plain
        define scope name (.closure c)
        return .closure c) :=
  erases_bind (erases_makeClosure scope name params body) fun c =>
    erases_bound scope name (.closure c)

lemma erases_callBuiltin (f : Builtin) (args : List Value) :
    Erases Value.plain (callBuiltin f args) (callBuiltin f (args.map Value.plain)) := by
  cases f with
  | abs =>
    cases args with
    | nil => exact erases_throw _
    | cons value rest =>
      have hsame := (Value.linked_plain value).toNumber_eq Value.signature_eq_of_plain
      cases hnumber : value.toNumber with
      | error e =>
        simp only [List.map_cons, callBuiltin, ← hsame, hnumber, bind, Except.bind]
        exact erases_throw e
      | ok n =>
        simp only [List.map_cons, callBuiltin, ← hsame, hnumber, bind, Except.bind]
        exact erases_ofExcept (Value.exceptLinked_ofExact _)
  | cls => exact fun _ => .ok rfl rfl

/-- Whether arguments are names does not depend on marks. -/
lemma parameterNames_plainAll (arguments : List Node) :
    (∃ names, parameterNames arguments = .ok names ∧
      parameterNames (Node.plainAll arguments) = .ok names) ∨
    ∃ text other, parameterNames arguments = .error (.invalidIdentifier text) ∧
      parameterNames (Node.plainAll arguments) = .error (.invalidIdentifier other) := by
  induction arguments with
  | nil => exact .inl ⟨[], rfl, rfl⟩
  | cons node rest ih =>
    cases node with
    | identifier name g =>
      rw [Node.plainAll, Node.plain, parameterNames, parameterNames]
      obtain ⟨names, hnames, hplain⟩ | ⟨text, other, htext, hother⟩ := ih
      · exact .inl ⟨name :: names, by rw [hnames]; rfl, by rw [hplain]; rfl⟩
      · exact .inr ⟨text, other, by rw [htext]; rfl, by rw [hother]; rfl⟩
    | _ => exact .inr ⟨_, _, rfl, rfl⟩

section Trees

variable {call call' : Value → List Value → Eval Value}

lemma erases_assignment (scope : ScopeId) (op : AssignOp) (left right : Node) (g : Bool)
    (hright : Erases Value.plain (evaluateWith call scope right)
      (evaluateWith call' scope right.plain)) :
    Erases Value.plain (evaluateWith call scope (.assignment op left right g))
      (evaluateWith call' scope (Node.assignment op left right g).plain) := by
  rw [Node.plain]
  cases left with
  | identifier name =>
    cases op with
    | assign =>
      rw [Node.plain, evaluateWith, evaluateWith]
      exact erases_bind hright fun value => erases_bound scope name value
    | compound op =>
      rw [Node.plain, evaluateWith, evaluateWith]
      refine erases_bind (erases_lookup scope name) fun current => ?_
      refine erases_bind hright fun operand => ?_
      have hresult := (Value.linked_plain current).binary Value.signature_eq_of_plain op
        (Value.linked_plain operand)
      exact erases_bind (erases_ofExcept hresult) fun value => erases_bound scope name value
  | call callee arguments =>
    cases op with
    | assign =>
      rw [Node.plain, evaluateWith, evaluateWith]
      obtain ⟨names, hnames, hplain⟩ | ⟨text, other, htext, hother⟩ :=
        parameterNames_plainAll arguments
      · rw [hnames, hplain]
        exact erases_definition scope callee names right
      · -- the argument that is no name is printed with its parentheses
        rw [htext, hother]
        exact fun _ => .error (.invalidIdentifier text other) rfl
    | compound op => exact erases_throw _
  | _ => cases op <;> exact erases_throw _

mutual

/-- Marks do not matter to the evaluation of a tree if they do not matter to the calls it makes. -/
lemma erases_evaluateWith
    (hcall : ∀ f args, Erases Value.plain (call f args) (call' f.plain (args.map Value.plain)))
    (scope : ScopeId) (node : Node) :
    Erases Value.plain (evaluateWith call scope node) (evaluateWith call' scope node.plain) := by
  match node with
  | .identifier name _ =>
    rw [Node.plain, evaluateWith, evaluateWith]
    exact erases_lookup scope name
  | .literal value _ =>
    have hpure := erases_pure Value.plain (.ofLiteral value)
    rw [Value.plain_ofLiteral] at hpure
    exact hpure
  | .array slots _ =>
    rw [Node.plain, evaluateWith, evaluateWith]
    exact erases_throw _
  | .function name params body _ =>
    rw [Node.plain, evaluateWith, evaluateWith]
    cases name with
    | none =>
      exact erases_bind (erases_makeClosure scope _ params body) fun c =>
        erases_pure Value.plain (.closure c)
    | some name => exact erases_definition scope name params body
  | .block body _ =>
    rw [Node.plain, evaluateWith, evaluateWith]
    exact erases_evaluateBody hcall scope .null body
  | .statement expression _ =>
    rw [Node.plain, evaluateWith, evaluateWith]
    exact erases_evaluateWith hcall scope expression
  | .assignment op left right g =>
    exact erases_assignment scope op left right g (erases_evaluateWith hcall scope right)
  | .binary op left right _ =>
    rw [Node.plain, evaluateWith, evaluateWith]
    refine erases_bind (erases_evaluateWith hcall scope left) fun a => ?_
    refine erases_bind (erases_evaluateWith hcall scope right) fun b => ?_
    exact erases_ofExcept ((Value.linked_plain a).binary Value.signature_eq_of_plain op
      (Value.linked_plain b))
  | .unary op operand _ =>
    rw [Node.plain, evaluateWith, evaluateWith]
    refine erases_bind (erases_evaluateWith hcall scope operand) fun value => ?_
    exact erases_ofExcept ((Value.linked_plain value).unary Value.signature_eq_of_plain op)
  | .call callee arguments _ =>
    rw [Node.plain, evaluateWith, evaluateWith]
    refine erases_bind (erases_lookup scope callee) fun function => ?_
    rw [← (Value.linked_plain function).isCallable_eq]
    by_cases hcallable : function.isCallable = true
    · rw [if_pos hcallable, if_pos hcallable]
      exact erases_bind (erases_evaluateAll hcall scope arguments) fun values => hcall function values
    · rw [if_neg hcallable, if_neg hcallable]
      exact erases_throw _

lemma erases_evaluateBody
    (hcall : ∀ f args, Erases Value.plain (call f args) (call' f.plain (args.map Value.plain)))
    (scope : ScopeId) (last : Value) (body : List Node) :
    Erases Value.plain (evaluateBody call scope last body)
      (evaluateBody call' scope last.plain (Node.plainAll body)) := by
  match body with
  | [] => exact erases_pure _ last
  | statement :: rest =>
    rw [Node.plainAll, evaluateBody, evaluateBody]
    exact erases_bind (erases_evaluateWith hcall scope statement) fun value =>
      erases_evaluateBody hcall scope value rest

lemma erases_evaluateAll
    (hcall : ∀ f args, Erases Value.plain (call f args) (call' f.plain (args.map Value.plain)))
    (scope : ScopeId) (arguments : List Node) :
    Erases (List.map Value.plain) (evaluateAll call scope arguments)
      (evaluateAll call' scope (Node.plainAll arguments)) := by
  match arguments with
  | [] => exact erases_pure (List.map Value.plain) []
  | argument :: rest =>
    rw [Node.plainAll, evaluateAll, evaluateAll]
    refine erases_bind (erases_evaluateWith hcall scope argument) fun value => ?_
    refine erases_bind (erases_evaluateAll hcall scope rest) fun values => ?_
    exact erases_pure (List.map Value.plain) (value :: values)

end

end Trees

lemma plain_enter (parent : ScopeId) (names : List String) (values : List Value) (s : Session) :
    (enter parent names values s).2.plain =
      (enter parent names (values.map Value.plain) s.plain).2 := by
  have hpush : (s.store.push (some parent)).2.plain = (s.store.plain.push (some parent)).2 := rfl
  simp only [enter, Session.plain, Store.plain_defineAll, hpush]
  rfl

lemma plain_leave (scope : ScopeId) (s : Session) : (leave scope s).plain = leave scope s.plain := by
  simp only [leave, Session.plain, Store.plain_release]

lemma erases_inScope (parent : ScopeId) (names : List String) (values : List Value)
    {body body' : ScopeId → Eval Value}
    (hbody : ∀ scope, Erases Value.plain (body scope) (body' scope)) :
    Erases Value.plain (inScope parent names values body)
      (inScope parent names (values.map Value.plain) body') := by
  intro s
  have hrun := hbody (enter parent names values s).1 (enter parent names values s).2
  rw [plain_enter] at hrun
  change Erased Value.plain (body (enter parent names values s).1 _)
    (body' (enter parent names (values.map Value.plain) s.plain).1 _) at hrun
  unfold inScope
  dsimp only
  generalize body (enter parent names values s).1 (enter parent names values s).2 = r at hrun ⊢
  generalize body' (enter parent names (values.map Value.plain) s.plain).1
    (enter parent names (values.map Value.plain) s.plain).2 = r' at hrun ⊢
  cases hrun with
  | ok hvalue hsession => exact .ok hvalue (hsession ▸ plain_leave _ _)
  | error herror hsession => exact .error herror (hsession ▸ plain_leave _ _)

/-- Marks do not matter to calls, however many are made inside each other. -/
theorem erases_callWith (callsLeft : Nat) (f : Value) (args : List Value) :
    Erases Value.plain (callWith callsLeft f args)
      (callWith callsLeft f.plain (args.map Value.plain)) := by
  induction callsLeft generalizing f args with
  | zero =>
    cases f with
    | builtin f => exact erases_callBuiltin f args
    | _ => exact erases_throw _
  | succ callsLeft ih =>
    cases f with
    | builtin f => exact erases_callBuiltin f args
    | closure c =>
      intro s
      have hbody := erases_inScope c.scope c.params args
        (fun scope => erases_evaluateWith ih scope c.body) s
      have hexpired : Erases Value.plain (throw (.expiredClosure c.signature) : Eval Value)
          (throw (.expiredClosure c.signature)) := erases_throw _
      rw [Value.plain, callWith, callWith]
      change Erased Value.plain
        ((if s.store.isLive c.scope then
          inScope c.scope c.params args fun scope => evaluateWith (callWith callsLeft) scope c.body
        else throw (.expiredClosure c.signature) : Eval Value) s)
        ((if s.store.plain.isLive c.scope then
          inScope c.scope c.params (args.map Value.plain) fun scope =>
            evaluateWith (callWith callsLeft) scope c.body.plain
        else throw (.expiredClosure c.signature) : Eval Value) s.plain)
      rw [Store.isLive_plain]
      by_cases hlive : s.store.isLive c.scope = true
      · rw [if_pos hlive, if_pos hlive]
        exact hbody
      · rw [if_neg hlive, if_neg hlive]
        exact hexpired s
    | _ => exact erases_throw _

theorem erases_call (f : Value) (args : List Value) :
    Erases Value.plain (Evaluation.call f args) (Evaluation.call f.plain (args.map Value.plain)) :=
  fun s => erases_callWith (maxCallDepth - s.depth) f args s

theorem erases_evaluate (scope : ScopeId) (node : Node) :
    Erases Value.plain (evaluate scope node) (evaluate scope node.plain) :=
  erases_evaluateWith erases_call scope node

/-- Two trees that differ in marks of parentheses alone are evaluated in sessions that do so too. Both
evaluations succeed with values that do so, or both fail with one error, except that the text that is
no name may differ; and the sessions they leave differ in marks alone. -/
theorem evaluate_same_of_plain_eq (m n : Node) (hnode : m.plain = n.plain) (s t : Session)
    (hsession : s.plain = t.plain) (scope : ScopeId) :
    (∃ v w s' t', evaluate scope m s = .ok v s' ∧ evaluate scope n t = .ok w t' ∧
      v.plain = w.plain ∧ s'.plain = t'.plain) ∨
    (∃ e e' s' t', evaluate scope m s = .error e s' ∧ evaluate scope n t = .error e' t' ∧
      e.Alike e' ∧ s'.plain = t'.plain) := by
  -- without marks, both are the same evaluation
  have hleft := erases_evaluate scope m s
  have hright := erases_evaluate scope n t
  rw [← hnode, ← hsession] at hright
  generalize evaluate scope m s = r at hleft ⊢
  generalize evaluate scope n t = r' at hright ⊢
  generalize evaluate scope m.plain s.plain = plain at hleft hright
  cases hleft with
  | ok hvalue hsession =>
    cases hright with
    | ok hvalue' hsession' =>
      left
      exact ⟨_, _, _, _, rfl, rfl, hvalue.trans hvalue'.symm, hsession.trans hsession'.symm⟩
  | error herror hsession =>
    cases hright with
    | error herror' hsession' =>
      right
      exact ⟨_, _, _, _, rfl, rfl, herror.trans herror'.symm, hsession.trans hsession'.symm⟩

/-- A function whose body was written with or without parentheses is called, and then a definition is
refused whose parameter was. -/
theorem evaluate_same_refusedDefinition :
    let session (g : Bool) : Session :=
      { store := (Store.empty.push none).2.define 0 "f"
          (.closure ⟨1, "f", [], .literal (.bool true) g, 0⟩) }
    let node (g : Bool) : Node :=
      .block [.assignment .assign (.identifier "x" g) (.call "f" [] g),
        .assignment .assign (.call "h" [.literal (.bool true) g]) (.identifier "x")]
    node true ≠ node false ∧ session true ≠ session false ∧
    ((∃ v w s' t', evaluate 0 (node true) (session true) = .ok v s' ∧
      evaluate 0 (node false) (session false) = .ok w t' ∧
      v.plain = w.plain ∧ s'.plain = t'.plain) ∨
    (∃ e e' s' t', evaluate 0 (node true) (session true) = .error e s' ∧
      evaluate 0 (node false) (session false) = .error e' t' ∧
      e.Alike e' ∧ s'.plain = t'.plain)) := by
  intro session node
  exact ⟨by decide, by decide,
    evaluate_same_of_plain_eq (node true) (node false) rfl (session true) (session false) rfl 0⟩

end Evaluation

end ScriptConsole
