import ScriptConsole.Proofs.CallDepth
import ScriptConsole.Proofs.Lifetimes
import ScriptConsole.Proofs.Shorthands

/-!
# How far the limit of calls reaches

An evaluation that starts with fewer calls under way may make more calls inside each other. It does
the same as before unless the limit was what ended it: the error of the limit is never caught, so
whatever comes to another end has never met it (`outlasts_evaluateWith`, `outlasts_callWith`).

The limit itself is reached exactly. In a chain of functions, where each one calls the next, the
number at the end is computed if the chain has at most `maxCallDepth` functions, and one function more
is one too many (`evaluate_chain`). Both are put together in `call_limit_monotone_and_exact`.
-/

namespace ScriptConsole

namespace Evaluation

variable {α β : Type}

/-- The computation has been ended by the limit of calls. -/
def Exhausted : EStateM.Result Error Session α → Prop
  | .error (.callDepth _) _ => True
  | _ => False

lemma Exhausted.error {e : Error} {s t : Session}
    (h : Exhausted (.error e s : EStateM.Result Error Session α)) :
    Exhausted (.error e t : EStateM.Result Error Session β) := by
  cases e with
  | callDepth => trivial
  | _ => cases h

/-- The same result in a session with so many calls under way. -/
def atDepth (depth : Nat) : EStateM.Result Error Session α → EStateM.Result Error Session α
  | .ok value s => .ok value { s with depth }
  | .error error s => .error error { s with depth }

/-- What does not come to the limit in `x` does the same in `y`, however many calls are under way. -/
def Outlasts (x y : Eval α) : Prop :=
  ∀ s depth, ¬Exhausted (x s) → y { s with depth } = atDepth depth (x s)

section

variable {call call' : Value → List Value → Eval Value}

lemma outlasts_pure (value : α) : Outlasts (pure value) (pure value) :=
  fun _ _ _ => rfl

lemma outlasts_throw (error : Error) : Outlasts (throw error : Eval α) (throw error) :=
  fun _ _ _ => rfl

lemma outlasts_ofExcept (result : Except Error α) :
    Outlasts (MonadExcept.ofExcept result) (MonadExcept.ofExcept result) := by
  cases result with
  | ok value => exact outlasts_pure value
  | error error => exact outlasts_throw error

lemma outlasts_lookup (scope : ScopeId) (name : String) :
    Outlasts (lookup scope name) (lookup scope name) :=
  fun _ _ _ => rfl

lemma Outlasts.bind {x y : Eval α} {f g : α → Eval β} (hxy : Outlasts x y)
    (hfg : ∀ value, Outlasts (f value) (g value)) : Outlasts (x >>= f) (y >>= g) := by
  intro s depth hended
  have hfirst := hxy s depth
  change EStateM.bind y g _ = atDepth depth (EStateM.bind x f s)
  change ¬Exhausted (EStateM.bind x f s) at hended
  unfold EStateM.bind at hended ⊢
  cases hresult : x s with
  | ok value t =>
    rw [hresult] at hfirst hended
    rw [hfirst id]
    exact hfg value t depth hended
  | error error t =>
    rw [hresult] at hfirst hended
    rw [hfirst (mt Exhausted.error hended)]
    rfl

lemma outlasts_bound (scope : ScopeId) (name : String) (value : Value) :
    Outlasts (do define scope name value; return value) (do define scope name value; return value) :=
  fun _ _ _ => rfl

lemma outlasts_definition (scope : ScopeId) (name : String) (params : List String) (body : Node) :
    Outlasts (definition scope name params body) (definition scope name params body) :=
  fun _ _ _ => rfl

lemma outlasts_callBuiltin (f : Builtin) (args : List Value) :
    Outlasts (callBuiltin f args) (callBuiltin f args) := by
  cases f with
  | abs =>
    cases args with
    | nil => exact outlasts_throw _
    | cons value rest => exact outlasts_ofExcept _
  | cls => exact fun _ _ _ => rfl

lemma outlasts_assignment (scope : ScopeId) (op : AssignOp) (left right : Node) (g : Bool)
    (hright : Outlasts (evaluateWith call scope right) (evaluateWith call' scope right)) :
    Outlasts (evaluateWith call scope (.assignment op left right g))
      (evaluateWith call' scope (.assignment op left right g)) := by
  cases left with
  | identifier name =>
    cases op with
    | assign =>
      rw [evaluateWith, evaluateWith]
      exact hright.bind (outlasts_bound scope name)
    | compound op =>
      rw [evaluateWith, evaluateWith]
      refine (outlasts_lookup scope name).bind fun current => ?_
      refine hright.bind fun operand => ?_
      exact (outlasts_ofExcept _).bind (outlasts_bound scope name)
  | call callee arguments =>
    cases op with
    | assign =>
      rw [evaluateWith, evaluateWith]
      refine (outlasts_ofExcept _).bind fun params => ?_
      exact outlasts_definition scope callee params right
    | compound op => exact outlasts_throw _
  | _ => cases op <;> exact outlasts_throw _

mutual

/-- The error of the limit goes through every construct, so an evaluation that ends otherwise has made
no call that came to the limit. -/
lemma outlasts_evaluateWith (hcall : ∀ f args, Outlasts (call f args) (call' f args))
    (scope : ScopeId) (node : Node) :
    Outlasts (evaluateWith call scope node) (evaluateWith call' scope node) := by
  match node with
  | .identifier name _ => exact outlasts_lookup scope name
  | .literal value _ => exact outlasts_pure _
  | .array _ _ => exact outlasts_throw _
  | .function name params body _ =>
    cases name with
    | none => exact fun _ _ _ => rfl
    | some name => exact outlasts_definition scope name params body
  | .block body _ => exact outlasts_evaluateBody hcall scope .null body
  | .statement inner _ => exact outlasts_evaluateWith hcall scope inner
  | .assignment op left right g =>
    exact outlasts_assignment scope op left right g (outlasts_evaluateWith hcall scope right)
  | .binary op left right _ =>
    rw [evaluateWith, evaluateWith]
    refine (outlasts_evaluateWith hcall scope left).bind fun a => ?_
    exact (outlasts_evaluateWith hcall scope right).bind fun b => outlasts_ofExcept _
  | .unary op operand _ =>
    rw [evaluateWith, evaluateWith]
    exact (outlasts_evaluateWith hcall scope operand).bind fun value => outlasts_ofExcept _
  | .call callee arguments _ =>
    rw [evaluateWith, evaluateWith]
    refine (outlasts_lookup scope callee).bind fun function => ?_
    split
    · exact (outlasts_evaluateAll hcall scope arguments).bind fun values => hcall function values
    · exact outlasts_throw _

lemma outlasts_evaluateBody (hcall : ∀ f args, Outlasts (call f args) (call' f args))
    (scope : ScopeId) (last : Value) (body : List Node) :
    Outlasts (evaluateBody call scope last body) (evaluateBody call' scope last body) := by
  match body with
  | [] => exact outlasts_pure last
  | statement :: rest =>
    rw [evaluateBody, evaluateBody]
    exact (outlasts_evaluateWith hcall scope statement).bind fun value =>
      outlasts_evaluateBody hcall scope value rest

lemma outlasts_evaluateAll (hcall : ∀ f args, Outlasts (call f args) (call' f args))
    (scope : ScopeId) (arguments : List Node) :
    Outlasts (evaluateAll call scope arguments) (evaluateAll call' scope arguments) := by
  match arguments with
  | [] => exact outlasts_pure []
  | argument :: rest =>
    rw [evaluateAll, evaluateAll]
    refine (outlasts_evaluateWith hcall scope argument).bind fun value => ?_
    exact (outlasts_evaluateAll hcall scope rest).bind fun values => outlasts_pure _

end

lemma outlasts_inScope (parent : ScopeId) (names : List String) (values : List Value)
    {body body' : ScopeId → Eval Value} (h : ∀ scope, Outlasts (body scope) (body' scope)) :
    Outlasts (inScope parent names values body) (inScope parent names values body') := by
  intro s depth hended
  have hbody := h (enter parent names values s).1 (enter parent names values s).2 (depth + 1)
  -- the body starts in the same scope, with one more call under way than the call itself
  have hentered : enter parent names values { s with depth } =
      ((enter parent names values s).1, { (enter parent names values s).2 with depth := depth + 1 }) :=
    rfl
  unfold inScope at hended ⊢
  rw [hentered]
  dsimp only at hended ⊢
  generalize body (enter parent names values s).1 (enter parent names values s).2 = r at hbody hended ⊢
  cases r with
  | ok value t =>
    rw [hbody id]
    rfl
  | error error t =>
    rw [hbody (mt Exhausted.error hended)]
    rfl

end

/-- More calls that may be made inside each other change nothing but where the limit is reached. -/
theorem outlasts_callWith {n m : Nat} (h : n ≤ m) (f : Value) (args : List Value) :
    Outlasts (callWith n f args) (callWith m f args) := by
  induction n generalizing m f args with
  | zero =>
    cases f with
    | closure c =>
      intro s depth hended
      exact absurd trivial hended
    | builtin f => cases m <;> exact outlasts_callBuiltin f args
    | _ => cases m <;> exact outlasts_throw _
  | succ n ih =>
    obtain ⟨m, rfl⟩ : ∃ k, m = k + 1 := Nat.exists_eq_add_one.mpr (by omega)
    cases f with
    | closure c =>
      have hbody (scope : ScopeId) : Outlasts (evaluateWith (callWith n) scope c.body)
          (evaluateWith (callWith m) scope c.body) :=
        outlasts_evaluateWith (ih (by omega)) scope c.body
      intro s depth
      rw [callWith, callWith]
      change ¬Exhausted ((if s.store.isLive c.scope then
          inScope c.scope c.params args fun scope => evaluateWith (callWith n) scope c.body
        else throw (.expiredClosure c.signature) : Eval Value) s) →
        (if s.store.isLive c.scope then
          inScope c.scope c.params args fun scope => evaluateWith (callWith m) scope c.body
        else throw (.expiredClosure c.signature) : Eval Value) { s with depth } = atDepth depth
          ((if s.store.isLive c.scope then
            inScope c.scope c.params args fun scope => evaluateWith (callWith n) scope c.body
          else throw (.expiredClosure c.signature) : Eval Value) s)
      by_cases hlive : s.store.isLive c.scope = true
      · rw [if_pos hlive, if_pos hlive]
        exact outlasts_inScope c.scope c.params args hbody s depth
      · rw [if_neg hlive, if_neg hlive]
        exact outlasts_throw _ s depth
    | builtin f => exact outlasts_callBuiltin f args
    | _ => exact outlasts_throw _

/-- The calls under way are missing from those that an evaluation may still make. -/
lemma evaluate_eq_evaluateWith (scope : ScopeId) (node : Node) (s : Session) :
    evaluate scope node s = evaluateWith (callWith (maxCallDepth - s.depth)) scope node s := by
  refine agreeAt_evaluateWith (fun f args t ht => ?_) effect_depthKept.keeps_call scope node s rfl
  rw [call, ht]

/-- An evaluation that ends without coming to the limit ends the same with fewer calls under way. -/
theorem evaluate_atDepth {s : Session} {depth : Nat} (h : depth ≤ s.depth) (scope : ScopeId)
    (node : Node) (hended : ¬Exhausted (evaluate scope node s)) :
    evaluate scope node { s with depth } = atDepth depth (evaluate scope node s) := by
  rw [evaluate_eq_evaluateWith] at hended
  rw [evaluate_eq_evaluateWith, evaluate_eq_evaluateWith]
  have hleft : maxCallDepth - s.depth ≤ maxCallDepth - depth := Nat.sub_le_sub_left h _
  exact outlasts_evaluateWith (outlasts_callWith hleft) scope node s depth hended

end Evaluation

/-! ### Chains of calls -/

namespace Store

variable (store : Store) {scope parent : ScopeId} (name : String)

lemma get_push_self : (store.push (some parent)).2.get store.next name = store.get parent name := by
  have hfind : find? (store.push (some parent)).2.frames store.next name =
      find? store.frames parent name := by
    rw [push, find?, if_pos rfl]
    rfl
  rw [get, get, hfind]

lemma get_push_of_ne (h : store.next ≠ scope) :
    (store.push (some parent)).2.get scope name = store.get scope name := by
  have hfind : find? (store.push (some parent)).2.frames scope name =
      find? store.frames scope name := by
    rw [push, find?, if_neg h]
  rw [get, get, hfind]

end Store

/-- A function without parameters in a chain: it calls the next one, and the last one gives a
number. -/
structure Stage where
  name : String
  next : Option String

namespace Stage

/-- The number at the end of a chain. -/
def seven : Number := ⟨7, by decide, by decide⟩

/-- What is written behind the equals sign of a definition. -/
def target : Option String → String
  | some name => name ++ "()"
  | none => "7"

/-- What a target is parsed as. -/
def tree : Option String → Node
  | some name => .call name []
  | none => .literal (.number seven)

/-- The definition of a stage. -/
def line (stage : Stage) : String :=
  stage.name ++ "() = " ++ target stage.next

/-- The stages of a chain of functions with these names. -/
def chain : List String → List Stage
  | [] => []
  | name :: later => ⟨name, later.head?⟩ :: chain later

lemma map_name_chain (names : List String) : (chain names).map name = names := by
  induction names with
  | nil => rfl
  | cons name later ih => exact congrArg (name :: ·) ih

lemma next_mem_of_mem_chain {names : List String} {stage : Stage} {name : String}
    (h : stage ∈ chain names) (hnext : stage.next = some name) : name ∈ names := by
  induction names with
  | nil => cases h
  | cons first later ih =>
    rcases List.mem_cons.mp h with rfl | h
    · exact List.mem_cons_of_mem _ (List.mem_of_mem_head? hnext)
    · exact List.mem_cons_of_mem _ (ih h)

/-- The names in a stage can be written in a text. -/
structure Named (stage : Stage) : Prop where
  name : Token.IsName stage.name
  next : ∀ name, stage.next = some name → Token.IsName name

lemma named_of_mem_chain {names : List String} (h : ∀ name ∈ names, Token.IsName name)
    {stage : Stage} (hstage : stage ∈ chain names) : stage.Named := by
  have hname : stage.name ∈ names := by
    rw [← map_name_chain names]
    exact List.mem_map_of_mem hstage
  exact ⟨h _ hname, fun name hnext => h name (next_mem_of_mem_chain hstage hnext)⟩

lemma scan_call {name : String} (h : Token.IsName name) :
    Token.scan (name ++ "()") = (Node.heading name []).tokens := by
  have hscan : Token.scan (name ++ "(" ++ ", ".intercalate [] ++ ")") = (Node.heading name []).tokens :=
    (Node.scans_heading h (by simp)).scan_eq
  have htext : name ++ "()" = name ++ "(" ++ ", ".intercalate [] ++ ")" := by
    apply String.toList_injective
    simp
  rwa [htext]

lemma reads_target {next : Option String} (h : ∀ name, next = some name → Token.IsName name) :
    Parser.Reads (.expression (tree next)) (Token.scan (target next)) [] := by
  cases next with
  | none =>
    have hparse : parse "7" = .ok (some (.statement (tree none))) := by cbv
    exact Parser.reads_expression_of_parse hparse
  | some name =>
    have hreads := (Node.readsAs_heading name []).mono (Nat.zero_le _) [] (fun _ => ahead_nil) ahead_nil
    rw [List.append_nil] at hreads
    rw [target, scan_call (h name rfl)]
    exact hreads

lemma parse_line {stage : Stage} (h : stage.Named) :
    parse stage.line =
      .ok (some (.statement (.assignment .assign (.heading stage.name []) (tree stage.next)))) := by
  have htext : stage.line = stage.name ++ "(" ++ ", ".intercalate [] ++ ") = " ++ target stage.next := by
    apply String.toList_injective
    simp [line]
  rw [htext]
  exact parse_definition h.name (by simp) (reads_target h.next)

lemma parse_call {name : String} (h : Token.IsName name) :
    parse (name ++ "()") = .ok (some (.statement (.call name []))) := by
  have hreads : Parser.Reads (.expression (tree (some name))) (Token.scan (target (some name))) [] :=
    reads_target fun other hother => Option.some.inj hother ▸ h
  rw [Parser.parse_eq_some_iff]
  refine .statementExpression ?_ hreads
  rw [scan_call h]
  exact ahead_cons.mpr (by simp)

/-- The function of a stage is there, as it was defined. -/
def Bound (s : Session) (stage : Stage) : Prop :=
  ∃ id, s.get stage.name = .closure ⟨id, stage.name, [], tree stage.next, Session.globals⟩

lemma bound_of_get_eq {s t : Session} {stage : Stage} (h : stage.Bound s)
    (hget : t.get stage.name = s.get stage.name) : stage.Bound t := by
  obtain ⟨id, hid⟩ := h
  exact ⟨id, hget.trans hid⟩

end Stage

namespace Session

/-- A definition is there once it is interpreted, and no other name is touched. -/
lemma bound_perform_line {session : Session} (hlive : session.store.isLive globals = true)
    {stage : Stage} (h : stage.Named) :
    let defined := perform (.interpret stage.line) session
    defined.store.isLive globals = true ∧ stage.Bound defined ∧
      ∀ name, name ≠ stage.name → defined.get name = session.get name := by
  intro defined
  have hinterpret := interpret_heading (Stage.parse_line h) session
  have hdefined := Evaluation.after_of_ok hinterpret
  change defined = _ at hdefined
  rw [hdefined]
  refine ⟨?_, ⟨_, (get_definition hlive stage.name _).1⟩, (get_definition hlive stage.name _).2⟩
  rw [Store.isLive_define]
  exact hlive

/-- Definitions of different functions are all there in the end, in whatever order they are made. -/
lemma bound_of_lines {stages : List Stage} (hnamed : ∀ stage ∈ stages, stage.Named)
    (hdistinct : (stages.map Stage.name).Nodup) {session : Session}
    (hlive : session.store.isLive globals = true) :
    let defined := (stages.map fun stage => Operation.interpret stage.line).foldl
      (fun session operation => perform operation session) session
    (∀ stage ∈ stages, stage.Bound defined) ∧
      ∀ name, name ∉ stages.map Stage.name → defined.get name = session.get name := by
  induction stages generalizing session with
  | nil => exact ⟨fun _ h => absurd h List.not_mem_nil, fun _ _ => rfl⟩
  | cons stage stages ih =>
    obtain ⟨hstage, hnamed⟩ := List.forall_mem_cons.mp hnamed
    obtain ⟨hnew, hdistinct⟩ := List.nodup_cons.mp hdistinct
    obtain ⟨hlive, hbound, hother⟩ := bound_perform_line hlive hstage
    obtain ⟨hrest, hkept⟩ := ih hnamed hdistinct hlive
    refine ⟨List.forall_mem_cons.mpr ⟨?_, hrest⟩, ?_⟩
    · exact Stage.bound_of_get_eq hbound (hkept _ hnew)
    · intro name hname
      obtain ⟨hne, hnot⟩ := not_or.mp (List.mem_cons.not.mp hname)
      exact (hkept name hnot).trans (hother name hne)

end Session

namespace Evaluation

open Stage

/-- A call that binds nothing finds what the outermost scope binds, and leaves it in place. -/
lemma get_enter_globals {s : Session} (hlive : s.store.isLive Session.globals = true) (name : String) :
    let entered := enter Session.globals [] [] s
    entered.2.store.get entered.1 name = s.get name ∧ entered.2.get name = s.get name := by
  have hne : s.store.next ≠ Session.globals := Nat.ne_of_gt (Store.lt_next_of_isLive hlive)
  exact ⟨s.store.get_push_self name, s.store.get_push_of_ne name hne⟩

/-- A function of a chain is called by entering a scope of its own, unless the limit is reached. -/
lemma evaluate_call_stage {stage : Stage} {s : Session} {scope : ScopeId}
    (hlive : s.store.isLive Session.globals = true)
    (hscope : s.store.get scope stage.name = s.get stage.name) (hbound : stage.Bound s) :
    evaluate scope (.call stage.name []) s =
      if maxCallDepth ≤ s.depth then .error (.callDepth maxCallDepth) s
      else inScope Session.globals [] [] (fun scope => evaluate scope (tree stage.next)) s := by
  obtain ⟨id, hget⟩ := hbound
  have hfunction := hscope.trans hget
  have hcall := call_closure ⟨id, stage.name, [], tree stage.next, Session.globals⟩ [] s
  rw [if_pos hlive] at hcall
  rw [← hcall, ← hfunction, evaluate, evaluateWith]
  change (if (s.store.get scope stage.name).isCallable = true then _ else _ : Eval Value) s = _
  rw [hfunction]
  rfl

/-- A chain of functions gives its number if there are calls enough left for all of them, and fails
otherwise. -/
theorem evaluate_chain (names : List String) (s : Session) (scope : ScopeId)
    (hlive : s.store.isLive Session.globals = true)
    (hscope : ∀ name, s.store.get scope name = s.get name)
    (hbound : ∀ stage ∈ chain names, stage.Bound s) (hdepth : s.depth ≤ maxCallDepth) :
    ∃ t, evaluate scope (tree names.head?) s =
      if s.depth + names.length ≤ maxCallDepth then .ok (.number seven) t
      else .error (.callDepth maxCallDepth) t := by
  induction names generalizing s scope with
  | nil =>
    refine ⟨s, ?_⟩
    rw [List.length_nil, if_pos (by omega)]
    rfl
  | cons name later ih =>
    obtain ⟨hfirst, hlater⟩ := List.forall_mem_cons.mp hbound
    have hcall := evaluate_call_stage hlive (hscope name) hfirst
    change ∃ t, evaluate scope (.call name []) s = _
    rw [hcall]
    by_cases hlimit : maxCallDepth ≤ s.depth
    · refine ⟨s, ?_⟩
      rw [if_pos hlimit, if_neg (by rw [List.length_cons]; omega)]
    · rw [if_neg hlimit]
      -- the rest of the chain is evaluated in the scope of the call, with one more call under way
      have hget := get_enter_globals hlive
      obtain ⟨t, ht⟩ := ih (enter Session.globals [] [] s).2 (enter Session.globals [] [] s).1
        (by rw [isLive_enter, hlive, Bool.or_true])
        (fun name => (hget name).1.trans (hget name).2.symm)
        (fun stage hstage => bound_of_get_eq (hlater stage hstage) (hget stage.name).2)
        (Nat.lt_of_not_le hlimit)
      have hlength : (enter Session.globals [] [] s).2.depth + later.length =
          s.depth + (name :: later).length := by
        change s.depth + 1 + later.length = _
        rw [List.length_cons]
        omega
      rw [hlength] at ht
      refine ⟨leave (enter Session.globals [] [] s).1 t, ?_⟩
      unfold inScope
      dsimp only
      rw [ht]
      by_cases hfits : s.depth + (name :: later).length ≤ maxCallDepth
      · rw [if_pos hfits, if_pos hfits]
      · rw [if_neg hfits, if_neg hfits]

end Evaluation

namespace Session

/-- After the definitions of a chain, in whatever order, a call of its first function succeeds if and
only if the chain is not longer than the limit. -/
lemma interpret_call_chain {first : String} {later : List String} {stages : List Stage}
    (hnames : ∀ name ∈ first :: later, Token.IsName name) (hdistinct : (first :: later).Nodup)
    (horder : stages.Perm (Stage.chain (first :: later))) {session : Session}
    (hlive : session.store.isLive globals = true) :
    let defined := (stages.map fun stage => Operation.interpret stage.line).foldl
      (fun session operation => perform operation session) session
    ∃ after, interpret (first ++ "()") defined =
      if (first :: later).length ≤ Evaluation.maxCallDepth then
        .ok (some (.number Stage.seven)) after
      else .error (.callDepth Evaluation.maxCallDepth) after := by
  intro defined
  have hnamed (stage : Stage) (hstage : stage ∈ stages) : stage.Named :=
    Stage.named_of_mem_chain hnames (horder.mem_iff.mp hstage)
  have hdistinct : (stages.map Stage.name).Nodup := by
    rw [(horder.map Stage.name).nodup_iff, Stage.map_name_chain]
    exact hdistinct
  have hbound := (bound_of_lines hnamed hdistinct hlive).1
  have hdefined : defined.store.isLive globals = true := by
    rw [(scopesKept_foldl _ session).1, hlive]
  obtain ⟨after, hafter⟩ := Evaluation.evaluate_chain (first :: later)
    { defined with depth := 0 } globals hdefined (fun _ => rfl)
    (fun stage hstage => hbound stage (horder.mem_iff.mpr hstage)) (Nat.zero_le _)
  have hparse := Stage.parse_call (hnames first List.mem_cons_self)
  refine ⟨after, ?_⟩
  rw [interpret_of_parse hparse, Evaluation.evaluate, Evaluation.evaluateWith]
  change Evaluation.evaluate globals (.call first []) { defined with depth := 0 } =
    if 0 + (first :: later).length ≤ Evaluation.maxCallDepth then _ else _ at hafter
  rw [Nat.zero_add] at hafter
  change EStateM.map some (Evaluation.evaluate globals (.call first [])) _ = _
  unfold EStateM.map
  rw [hafter]
  by_cases hfits : (first :: later).length ≤ Evaluation.maxCallDepth
  · rw [if_pos hfits, if_pos hfits]
  · rw [if_neg hfits, if_neg hfits]

end Session

open Evaluation (evaluate Exhausted atDepth)

/-- The limit of calls only ever stops an evaluation. One that ends without coming to it has the same
result with fewer calls under way, and leaves the same scopes and signals behind. And a chain of
functions that a host defines one by one, in any order and whatever it has done before, gives its
number if and only if there are at most 256 of them; otherwise it comes to the limit. -/
theorem call_limit_monotone_and_exact :
    (∀ scope node s depth, depth ≤ s.depth → ¬Exhausted (evaluate scope node s) →
      evaluate scope node { s with depth } = atDepth depth (evaluate scope node s)) ∧
    ∀ operations first later (stages : List Stage), (∀ name ∈ first :: later, Token.IsName name) →
      (first :: later).Nodup → stages.Perm (Stage.chain (first :: later)) →
      ∃ after, Session.interpret (first ++ "()") (Session.afterAll
          (operations ++ stages.map fun stage => .interpret stage.line)) =
        if (first :: later).length ≤ 256 then .ok (some (.number Stage.seven)) after
        else .error (.callDepth 256) after := by
  refine ⟨fun scope node s depth h => Evaluation.evaluate_atDepth h scope node, ?_⟩
  intro operations first later stages hnames hdistinct horder
  have hlive := Session.isLive_globals_afterAll operations
  rw [Session.afterAll, List.foldl_append]
  exact Session.interpret_call_chain hnames hdistinct horder hlive

/-- Names for the functions of a chain: `g`, `gx`, `gxx` and so on. -/
def Stage.names (n : Nat) : List String :=
  (List.range n).map fun k => String.ofList ('g' :: List.replicate k 'x')

lemma Stage.length_names (n : Nat) : (names n).length = n := by
  rw [names, List.length_map, List.length_range]

lemma Stage.names_succ (n : Nat) : ∃ later, names (n + 1) = "g" :: later := by
  rw [names, List.range_succ_eq_map, List.map_cons]
  exact ⟨_, rfl⟩

lemma Stage.isName_of_mem_names {n : Nat} {name : String} (h : name ∈ names n) :
    Token.IsName name := by
  obtain ⟨k, -, rfl⟩ := List.mem_map.mp h
  have hhead : ∀ entry ∈ Token.keywords, entry.1.toList.head? ≠ some 'g' := by decide
  refine ⟨'g', List.replicate k 'x', String.toList_ofList, by decide, ?_, ?_⟩
  · intro c hc
    rw [List.eq_of_mem_replicate hc]
    decide
  · rw [List.lookup_eq_none_iff]
    intro entry hentry
    rw [bne_iff_ne]
    intro hkeyword
    apply hhead entry hentry
    rw [← hkeyword, String.toList_ofList]
    rfl

lemma Stage.nodup_names (n : Nat) : (names n).Nodup := by
  refine List.nodup_range.map ?_
  intro k m hkm
  have hlength := congrArg List.length (String.ofList_injective hkm)
  simpa using hlength

/-- A chain of 256 functions gives its number and a chain of 257 functions does not. A function that
can be called with 255 calls under way can be called with none. -/
theorem call_limit_at_bound :
    (∃ after, Session.interpret "g()" (Session.afterAll
        ((Stage.chain (Stage.names 256)).map fun stage => .interpret stage.line)) =
      .ok (some (.number Stage.seven)) after) ∧
    (∃ after, Session.interpret "g()" (Session.afterAll
        ((Stage.chain (Stage.names 257)).map fun stage => .interpret stage.line)) =
      .error (.callDepth 256) after) ∧
    let s := { Session.new.define "g" (.closure ⟨1, "g", [], Stage.tree none, Session.globals⟩) with
      depth := 255 }
    ¬Exhausted (evaluate Session.globals (.call "g" []) s) ∧
      evaluate Session.globals (.call "g" []) { s with depth := 0 } =
        atDepth 0 (evaluate Session.globals (.call "g" []) s) := by
  have hchain (n : Nat) : ∃ after, Session.interpret "g()" (Session.afterAll
        ((Stage.chain (Stage.names (n + 1))).map fun stage => .interpret stage.line)) =
      if n + 1 ≤ 256 then .ok (some (.number Stage.seven)) after else .error (.callDepth 256) after := by
    obtain ⟨later, hlater⟩ := Stage.names_succ n
    have hnames (name : String) (h : name ∈ "g" :: later) : Token.IsName name :=
      Stage.isName_of_mem_names (hlater ▸ h)
    have hcall := call_limit_monotone_and_exact.2 [] "g" later _ hnames
      (hlater ▸ Stage.nodup_names (n + 1)) (.refl _)
    rw [← hlater, Stage.length_names] at hcall
    exact hcall
  have hended : ¬Exhausted (evaluate Session.globals (.call "g" [])
      { Session.new.define "g" (.closure ⟨1, "g", [], Stage.tree none, Session.globals⟩) with
        depth := 255 }) := id
  exact ⟨hchain 255, hchain 256, hended,
    call_limit_monotone_and_exact.1 _ _ _ 0 (Nat.zero_le _) hended⟩

end ScriptConsole
