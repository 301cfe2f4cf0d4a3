import Mathlib.Data.List.Forall2
import ScriptConsole.Proofs.Effects

/-!
# Two evaluations in lockstep

The same tree is evaluated in two sessions. A `Coupling` says when two sessions, and scopes and
closures in them, correspond, and that every single thing an evaluation does keeps them in
correspondence. Then whole evaluations and calls do (`lockstep_evaluate`, `lockstep_call`): both
succeed with corresponding values or both fail with one error. The induction over trees and nested
calls is done here once for all couplings.
-/

namespace ScriptConsole

/-- Closures that are the same function: what a call of them does differs only by where they were
made. -/
def Closure.Alike (c d : Closure) : Prop :=
  c.name = d.name ∧ c.params = d.params ∧ c.body = d.body

lemma Closure.Alike.signature_eq {c d : Closure} (h : c.Alike d) : c.signature = d.signature := by
  rw [signature, signature, h.1, h.2.1]

namespace Value

/-- The same value, but for closures, which correspond. -/
inductive Linked (R : Closure → Closure → Prop) : Value → Value → Prop
  | number (n : Number) : Linked R (.number n) (.number n)
  | string (s : String) : Linked R (.string s) (.string s)
  | bool (b : Bool) : Linked R (.bool b) (.bool b)
  | null : Linked R .null .null
  | builtin (f : Builtin) : Linked R (.builtin f) (.builtin f)
  | closure {c d : Closure} (h : R c d) : Linked R (.closure c) (.closure d)

section

variable {R S : Closure → Closure → Prop} {v v' w w' : Value}

lemma Linked.imp (h : Linked R v v') (himp : ∀ c d, R c d → S c d) : Linked S v v' := by
  cases h with
  | number n => exact .number n
  | string s => exact .string s
  | bool b => exact .bool b
  | null => exact .null
  | builtin f => exact .builtin f
  | closure h => exact .closure (himp _ _ h)

lemma linked_self (h : ∀ c, v = .closure c → R c c) : Linked R v v := by
  cases v with
  | number n => exact .number n
  | string s => exact .string s
  | bool b => exact .bool b
  | null => exact .null
  | builtin f => exact .builtin f
  | closure c => exact .closure (h c rfl)

lemma linked_ofLiteral (literal : Literal) : Linked R (ofLiteral literal) (ofLiteral literal) := by
  refine linked_self fun c hc => ?_
  cases literal <;> cases hc

lemma Linked.isCallable_eq (h : Linked R v v') : v.isCallable = v'.isCallable := by
  cases h <;> rfl

lemma Linked.isString_eq (h : Linked R v v') : v.isString = v'.isString := by
  cases h <;> rfl

lemma Linked.isTruthy_eq (h : Linked R v v') : v.isTruthy = v'.isTruthy := by
  cases h <;> rfl

lemma Linked.text_eq (hR : ∀ c d, R c d → c.signature = d.signature) (h : Linked R v v') :
    v.text = v'.text := by
  cases h with
  | closure h => exact hR _ _ h
  | _ => rfl

lemma Linked.toNumber_eq (hR : ∀ c d, R c d → c.signature = d.signature) (h : Linked R v v') :
    v.toNumber = v'.toNumber := by
  cases h with
  | closure h =>
    rw [toNumber, toNumber, text, text, hR _ _ h]
  | _ => rfl

end

end Value

/-- Two results of operators: the same error, which is not about missing input, or values that
correspond. -/
inductive ExceptLinked (R : Closure → Closure → Prop) : Except Error Value → Except Error Value → Prop
  | ok {v v' : Value} (h : Value.Linked R v v') : ExceptLinked R (.ok v) (.ok v')
  | error {e : Error} (h : e.isIncomplete = false) : ExceptLinked R (.error e) (.error e)

namespace Value

variable {R : Closure → Closure → Prop} {v v' w w' : Value}

lemma isIncomplete_of_toNumber {e : Error} (h : v.toNumber = .error e) : e.isIncomplete = false := by
  cases v with
  | string s =>
    rw [toNumber] at h
    split at h
    · cases h
    · split at h <;> cases h
      rfl
  | _ => cases h <;> rfl

lemma exceptLinked_ofExact (n : Int) : ExceptLinked R (ofExact n) (ofExact n) := by
  rw [ofExact]
  split
  · exact .ok (.number _)
  · exact .error rfl

lemma exceptLinked_arithmetic (op : BinaryOp) (a b : Number) :
    ExceptLinked R (arithmetic op a b) (arithmetic op a b) := by
  cases op with
  | add | subtract | multiply => exact exceptLinked_ofExact _
  | divide =>
    rw [arithmetic]
    split
    · exact .error rfl
    · exact exceptLinked_ofExact _
  | remainder =>
    rw [arithmetic]
    split
    · exact .error rfl
    · unfold ofExact
      split
      · exact exceptLinked_ofExact _
      · exact .error rfl

/-- Operators see of a closure its signature only. -/
lemma Linked.binary (hR : ∀ c d, R c d → c.signature = d.signature) (op : BinaryOp)
    (hv : Linked R v v') (hw : Linked R w w') :
    ExceptLinked R (Value.binary op v w) (Value.binary op v' w') := by
  have hsame : Value.binary op v w = Value.binary op v' w' := by
    unfold Value.binary
    rw [hv.isString_eq, hw.isString_eq, hv.text_eq hR, hw.text_eq hR, hv.toNumber_eq hR,
      hw.toNumber_eq hR]
  rw [hsame, Value.binary]
  split
  · exact .ok (.string _)
  · cases hleft : v'.toNumber with
    | error e => exact .error (isIncomplete_of_toNumber hleft)
    | ok a =>
      cases hright : w'.toNumber with
      | error e => exact .error (isIncomplete_of_toNumber hright)
      | ok b => exact exceptLinked_arithmetic op a b

lemma Linked.unary (hR : ∀ c d, R c d → c.signature = d.signature) (op : UnaryOp)
    (h : Linked R v v') : ExceptLinked R (Value.unary op v) (Value.unary op v') := by
  cases op with
  | plus => exact .ok h
  | minus =>
    rw [Value.unary, Value.unary, h.toNumber_eq hR]
    cases hnumber : v'.toNumber with
    | error e => exact .error (isIncomplete_of_toNumber hnumber)
    | ok n => exact exceptLinked_ofExact _
  | not =>
    rw [Value.unary, Value.unary, h.isTruthy_eq]
    exact .ok (.bool _)

end Value

namespace Evaluation

open Value (Linked)

/-- How two sessions correspond. A world stands for two sessions in correspondence, and `Later` leads
from the world in which a computation starts to the one in which it ends. -/
structure Coupling (World : Type) where
  left : World → Session
  right : World → Session
  Later : World → World → Prop
  Scopes : World → ScopeId → ScopeId → Prop
  Closures : World → Closure → Closure → Prop
  refl : ∀ w, Later w w
  trans : ∀ {u v w}, Later u v → Later v w → Later u w
  scopes_later : ∀ {v w a b}, Later v w → Scopes v a b → Scopes w a b
  closures_later : ∀ {v w c d}, Later v w → Closures v c d → Closures w c d
  alike : ∀ {w c d}, Closures w c d → c.Alike d
  depth : ∀ w, (left w).depth = (right w).depth
  isLive : ∀ {w c d}, Closures w c d →
    (left w).store.isLive c.scope = (right w).store.isLive d.scope
  get : ∀ {w a b}, Scopes w a b → ∀ name,
    Linked (Closures w) ((left w).store.get a name) ((right w).store.get b name)
  define : ∀ {w a b v v'}, Scopes w a b → Linked (Closures w) v v' → ∀ name,
    ∃ w', Later w w' ∧ left w' = { left w with store := (left w).store.define a name v } ∧
      right w' = { right w with store := (right w).store.define b name v' }
  make : ∀ {w a b}, Scopes w a b →
    ∃ w', Later w w' ∧ left w' = { left w with store := (left w).store.fresh.2 } ∧
      right w' = { right w with store := (right w).store.fresh.2 } ∧
      ∀ name params body, Closures w' ⟨(left w).store.next, name, params, body, a⟩
        ⟨(right w).store.next, name, params, body, b⟩
  raise : ∀ w signal,
    ∃ w', Later w w' ∧ left w' = { left w with signals := (left w).signals ++ [signal] } ∧
      right w' = { right w with signals := (right w).signals ++ [signal] }
  /-- A call can be entered, and left again when its body is done. -/
  call : ∀ {w c d args args'}, Closures w c d → (left w).store.isLive c.scope = true →
    List.Forall₂ (Linked (Closures w)) args args' →
    ∃ w', left w' = (enter c.scope c.params args (left w)).2 ∧
      right w' = (enter d.scope d.params args' (right w)).2 ∧
      Scopes w' (left w).store.next (right w).store.next ∧
      ∀ u, Later w' u → ∃ u', Later w u' ∧ left u' = leave (left w).store.next (left u) ∧
        right u' = leave (right w).store.next (right u) ∧ ∀ c d, Closures u c d → Closures u' c d

namespace Coupling

variable {World α β γ δ : Type} (C : Coupling World)

/-- Both computations have succeeded with corresponding values or failed with one error, which is not
about missing input, and the sessions they leave correspond. -/
inductive Ended (w : World) (P : World → α → β → Prop) :
    EStateM.Result Error Session α → EStateM.Result Error Session β → Prop
  | ok {w' : World} {a : α} {b : β} {s t : Session} (later : C.Later w w') (left : C.left w' = s)
      (right : C.right w' = t) (h : P w' a b) : Ended w P (.ok a s) (.ok b t)
  | error {w' : World} {e : Error} {s t : Session} (later : C.Later w w') (left : C.left w' = s)
      (right : C.right w' = t) (h : e.isIncomplete = false) : Ended w P (.error e s) (.error e t)

/-- Two computations that start in corresponding sessions end in corresponding ones. -/
def Lockstep (w : World) (P : World → α → β → Prop) (x : Eval α) (y : Eval β) : Prop :=
  C.Ended w P (x (C.left w)) (y (C.right w))

def Values (w : World) (v v' : Value) : Prop :=
  Linked (C.Closures w) v v'

def ValueLists (w : World) (vs vs' : List Value) : Prop :=
  List.Forall₂ (C.Values w) vs vs'

variable {C} {u w : World} {P : World → α → β → Prop}

lemma values_later (h : C.Later u w) {v v' : Value} (hv : C.Values u v v') : C.Values w v v' :=
  hv.imp fun _ _ => C.closures_later h

lemma signature_eq {c d : Closure} (h : C.Closures w c d) : c.signature = d.signature :=
  (C.alike h).signature_eq

lemma lockstep_pure {a : α} {b : β} (h : P w a b) :
    C.Lockstep w P (pure a) (pure b) :=
  .ok (C.refl w) rfl rfl h

lemma lockstep_throw {e : Error} (h : e.isIncomplete = false) :
    C.Lockstep w P (throw e) (throw e) :=
  .error (C.refl w) rfl rfl h

lemma lockstep_bind {Q : World → γ → δ → Prop} {x : Eval α} {y : Eval β} {f : α → Eval γ}
    {g : β → Eval δ} (hxy : C.Lockstep w P x y)
    (hfg : ∀ w' a b, C.Later w w' → P w' a b → C.Lockstep w' Q (f a) (g b)) :
    C.Lockstep w Q (x >>= f) (y >>= g) := by
  unfold Lockstep at hxy ⊢
  simp only [bind, EStateM.bind]
  generalize x (C.left w) = r at hxy ⊢
  generalize y (C.right w) = r' at hxy ⊢
  cases hxy with
  | @ok w' a b s t later hs ht h =>
    have hrest := hfg w' a b later h
    subst hs ht
    unfold Lockstep at hrest
    dsimp only
    generalize f a (C.left w') = r at hrest ⊢
    generalize g b (C.right w') = r' at hrest ⊢
    cases hrest with
    | ok later' hs ht h => exact .ok (C.trans later later') hs ht h
    | error later' hs ht h => exact .error (C.trans later later') hs ht h
  | error later hs ht h => exact .error later hs ht h

lemma lockstep_ofExcept {r r' : Except Error Value} (h : ExceptLinked (C.Closures w) r r') :
    C.Lockstep w C.Values (MonadExcept.ofExcept r) (MonadExcept.ofExcept r') := by
  cases h with
  | ok h => exact lockstep_pure h
  | error h => exact lockstep_throw h

section Scope

variable {a b : ScopeId} (h : C.Scopes w a b)

include h

lemma lockstep_lookup (name : String) : C.Lockstep w C.Values (lookup a name) (lookup b name) :=
  .ok (C.refl w) rfl rfl (C.get h name)

lemma lockstep_define (name : String) {v v' : Value} (hv : C.Values w v v') :
    C.Lockstep w (fun _ _ _ => True) (Evaluation.define a name v)
      (Evaluation.define b name v') := by
  obtain ⟨w', later, hleft, hright⟩ := C.define h hv name
  exact .ok later hleft hright trivial

lemma lockstep_bound (name : String) {v v' : Value} (hv : C.Values w v v') :
    C.Lockstep w C.Values (do Evaluation.define a name v; return v)
      (do Evaluation.define b name v'; return v') :=
  lockstep_bind (lockstep_define h name hv) fun _ _ _ later _ => lockstep_pure (values_later later hv)

lemma lockstep_makeClosure (name : String) (params : List String) (body : Node) :
    C.Lockstep w C.Closures (makeClosure a name params body) (makeClosure b name params body) := by
  obtain ⟨w', later, hleft, hright, hclosure⟩ := C.make h
  exact .ok later hleft hright (hclosure name params body)

end Scope

lemma lockstep_callBuiltin (f : Builtin) {args args' : List Value} (h : C.ValueLists w args args') :
    C.Lockstep w C.Values (callBuiltin f args) (callBuiltin f args') := by
  cases f with
  | abs =>
    cases h with
    | nil => exact lockstep_throw rfl
    | @cons v v' _ _ hv _ =>
      have hsame := Linked.toNumber_eq (fun _ _ => signature_eq) hv
      cases hnumber : v'.toNumber with
      | error e =>
        rw [callBuiltin, callBuiltin, hsame, hnumber]
        exact lockstep_throw (Value.isIncomplete_of_toNumber hnumber)
      | ok n =>
        simp only [callBuiltin, hsame, hnumber, bind, Except.bind]
        exact lockstep_ofExcept (Value.exceptLinked_ofExact _)
  | cls =>
    obtain ⟨w', later, hleft, hright⟩ := C.raise w .clearScreen
    exact .ok later hleft hright .null

lemma isIncomplete_of_parameterNames {arguments : List Node} {e : Error}
    (h : parameterNames arguments = .error e) : e.isIncomplete = false := by
  induction arguments with
  | nil => cases h
  | cons node rest ih =>
    cases node with
    | identifier name =>
      rw [parameterNames] at h
      cases hrest : parameterNames rest with
      | error e' =>
        rw [hrest] at h
        cases h
        exact ih hrest
      | ok names =>
        rw [hrest] at h
        cases h
    | _ =>
      cases h
      rfl

section Trees

variable {call call' : Value → List Value → Eval Value}

lemma lockstep_assignment {a b : ScopeId} (h : C.Scopes w a b) (op : AssignOp) (left right : Node)
    (g : Bool)
    (hright : ∀ {w}, C.Scopes w a b →
      C.Lockstep w C.Values (evaluateWith call a right) (evaluateWith call' b right)) :
    C.Lockstep w C.Values (evaluateWith call a (.assignment op left right g))
      (evaluateWith call' b (.assignment op left right g)) := by
  cases left with
  | identifier name =>
    cases op with
    | assign =>
      rw [evaluateWith, evaluateWith]
      exact lockstep_bind (hright h) fun w' v v' later hv =>
        lockstep_bound (C.scopes_later later h) name hv
    | compound op =>
      rw [evaluateWith, evaluateWith]
      refine lockstep_bind (lockstep_lookup h name) fun w₁ v v' later₁ hv => ?_
      have h₁ := C.scopes_later later₁ h
      refine lockstep_bind (hright h₁) fun w₂ x x' later₂ hx => ?_
      have hresult := (values_later later₂ hv).binary (fun _ _ => signature_eq) op hx
      refine lockstep_bind (lockstep_ofExcept hresult) fun w₃ y y' later₃ hy => ?_
      exact lockstep_bound (C.scopes_later later₃ (C.scopes_later later₂ h₁)) name hy
  | call callee arguments =>
    cases op with
    | assign =>
      rw [evaluateWith, evaluateWith]
      cases hparams : parameterNames arguments with
      | error e => exact lockstep_throw (isIncomplete_of_parameterNames hparams)
      | ok params =>
        have hmade := lockstep_bind (lockstep_makeClosure h callee params right)
          fun w' c d later hc => lockstep_bound (C.scopes_later later h) callee (.closure hc)
        exact hmade
    | compound op => exact lockstep_throw rfl
  | _ => cases op <;> exact lockstep_throw rfl

mutual

lemma lockstep_evaluateWith
    (hcall : ∀ {w f f' args args'}, C.Values w f f' → C.ValueLists w args args' →
      C.Lockstep w C.Values (call f args) (call' f' args'))
    {w : World} {a b : ScopeId} (h : C.Scopes w a b) (node : Node) :
    C.Lockstep w C.Values (evaluateWith call a node) (evaluateWith call' b node) := by
  match node with
  | .identifier name _ => exact lockstep_lookup h name
  | .literal value _ => exact lockstep_pure (Value.linked_ofLiteral value)
  | .array _ _ => exact lockstep_throw rfl
  | .function name params body _ =>
    rw [evaluateWith, evaluateWith]
    refine lockstep_bind (lockstep_makeClosure h _ params body) fun w' c d later hc => ?_
    cases name with
    | none => exact lockstep_pure (.closure hc)
    | some name => exact lockstep_bound (C.scopes_later later h) name (.closure hc)
  | .block body _ => exact lockstep_evaluateBody hcall h .null body
  | .statement inner _ => exact lockstep_evaluateWith hcall h inner
  | .assignment op left right g =>
    exact lockstep_assignment h op left right g fun h => lockstep_evaluateWith hcall h right
  | .binary op left right _ =>
    rw [evaluateWith, evaluateWith]
    refine lockstep_bind (lockstep_evaluateWith hcall h left) fun w₁ v v' later₁ hv => ?_
    refine lockstep_bind (lockstep_evaluateWith hcall (C.scopes_later later₁ h) right)
      fun w₂ x x' later₂ hx => ?_
    exact lockstep_ofExcept ((values_later later₂ hv).binary (fun _ _ => signature_eq) op hx)
  | .unary op operand _ =>
    rw [evaluateWith, evaluateWith]
    refine lockstep_bind (lockstep_evaluateWith hcall h operand) fun w₁ v v' later hv => ?_
    exact lockstep_ofExcept (hv.unary (fun _ _ => signature_eq) op)
  | .call callee arguments _ =>
    rw [evaluateWith, evaluateWith]
    refine lockstep_bind (lockstep_lookup h callee) fun w₁ f f' later hf => ?_
    rw [hf.isCallable_eq]
    split
    · refine lockstep_bind (lockstep_evaluateAll hcall (C.scopes_later later h) arguments)
        fun w₂ vs vs' later₂ hvs => ?_
      exact hcall (values_later later₂ hf) hvs
    · exact lockstep_throw rfl

lemma lockstep_evaluateBody
    (hcall : ∀ {w f f' args args'}, C.Values w f f' → C.ValueLists w args args' →
      C.Lockstep w C.Values (call f args) (call' f' args'))
    {w : World} {a b : ScopeId} (h : C.Scopes w a b) {last last' : Value} (hlast : C.Values w last last') (body : List Node) :
    C.Lockstep w C.Values (evaluateBody call a last body) (evaluateBody call' b last' body) := by
  match body with
  | [] => exact lockstep_pure hlast
  | statement :: rest =>
    rw [evaluateBody, evaluateBody]
    exact lockstep_bind (lockstep_evaluateWith hcall h statement) fun w₁ v v' later hv =>
      lockstep_evaluateBody hcall (C.scopes_later later h) hv rest

lemma lockstep_evaluateAll
    (hcall : ∀ {w f f' args args'}, C.Values w f f' → C.ValueLists w args args' →
      C.Lockstep w C.Values (call f args) (call' f' args'))
    {w : World} {a b : ScopeId} (h : C.Scopes w a b) (arguments : List Node) :
    C.Lockstep w C.ValueLists (evaluateAll call a arguments) (evaluateAll call' b arguments) := by
  match arguments with
  | [] => exact lockstep_pure .nil
  | argument :: rest =>
    rw [evaluateAll, evaluateAll]
    refine lockstep_bind (lockstep_evaluateWith hcall h argument) fun w₁ v v' later hv => ?_
    refine lockstep_bind (lockstep_evaluateAll hcall (C.scopes_later later h) rest)
      fun w₂ vs vs' later₂ hvs => ?_
    exact lockstep_pure (.cons (values_later later₂ hv) hvs)

end

end Trees

lemma lockstep_inScope {c d : Closure} {args args' : List Value} (hc : C.Closures w c d)
    (hlive : (C.left w).store.isLive c.scope = true) (hargs : C.ValueLists w args args')
    {body body' : ScopeId → Eval Value}
    (hbody : ∀ {w' a b}, C.Scopes w' a b → C.Lockstep w' C.Values (body a) (body' b)) :
    C.Lockstep w C.Values (inScope c.scope c.params args body)
      (inScope d.scope d.params args' body') := by
  obtain ⟨w', hleft, hright, hscopes, hleave⟩ := C.call hc hlive hargs
  have hrun := hbody hscopes
  unfold Lockstep at hrun ⊢
  unfold inScope
  dsimp only
  rw [hleft, hright] at hrun
  change C.Ended w' C.Values (body (enter c.scope c.params args (C.left w)).1 _)
    (body' (enter d.scope d.params args' (C.right w)).1 _) at hrun
  generalize body (enter c.scope c.params args (C.left w)).1
    (enter c.scope c.params args (C.left w)).2 = r at hrun ⊢
  generalize body' (enter d.scope d.params args' (C.right w)).1
    (enter d.scope d.params args' (C.right w)).2 = r' at hrun ⊢
  cases hrun with
  | ok later hs ht hv =>
    obtain ⟨u, later, hleft, hright, hclosures⟩ := hleave _ later
    subst hs ht
    exact .ok later hleft hright (hv.imp hclosures)
  | error later hs ht h =>
    obtain ⟨u, later, hleft, hright, -⟩ := hleave _ later
    subst hs ht
    exact .error later hleft hright h

theorem lockstep_callWith (callsLeft : Nat) {f f' : Value} {args args' : List Value} {w : World}
    (hf : C.Values w f f') (hargs : C.ValueLists w args args') :
    C.Lockstep w C.Values (callWith callsLeft f args) (callWith callsLeft f' args') := by
  induction callsLeft generalizing f f' args args' w with
  | zero =>
    cases hf with
    | builtin f => exact lockstep_callBuiltin f hargs
    | _ => exact lockstep_throw rfl
  | succ callsLeft ih =>
    cases hf with
    | builtin f => exact lockstep_callBuiltin f hargs
    | @closure c d hc =>
      obtain ⟨-, -, hbody⟩ := C.alike hc
      have hsame := C.isLive hc
      rw [callWith, callWith]
      change C.Ended w C.Values
        ((if (C.left w).store.isLive c.scope then
          inScope c.scope c.params args fun scope => evaluateWith (callWith callsLeft) scope c.body
        else throw (.expiredClosure c.signature) : Eval Value) (C.left w))
        ((if (C.right w).store.isLive d.scope then
          inScope d.scope d.params args' fun scope => evaluateWith (callWith callsLeft) scope d.body
        else throw (.expiredClosure d.signature) : Eval Value) (C.right w))
      rw [← hsame, ← hbody, signature_eq hc]
      by_cases hlive : (C.left w).store.isLive c.scope = true
      · rw [if_pos hlive, if_pos hlive]
        exact lockstep_inScope hc hlive hargs fun h => lockstep_evaluateWith ih h c.body
      · rw [if_neg hlive, if_neg hlive]
        exact lockstep_throw rfl
    | _ => exact lockstep_throw rfl

theorem lockstep_call {f f' : Value} {args args' : List Value} (hf : C.Values w f f')
    (hargs : C.ValueLists w args args') :
    C.Lockstep w C.Values (Evaluation.call f args) (Evaluation.call f' args') := by
  have hrun := lockstep_callWith (maxCallDepth - (C.left w).depth) hf hargs
  unfold Lockstep at hrun ⊢
  unfold Evaluation.call
  rwa [← C.depth w]

theorem lockstep_evaluate {a b : ScopeId} (h : C.Scopes w a b) (node : Node) :
    C.Lockstep w C.Values (evaluate a node) (evaluate b node) :=
  lockstep_evaluateWith lockstep_call h node

end Coupling

end Evaluation

end ScriptConsole
