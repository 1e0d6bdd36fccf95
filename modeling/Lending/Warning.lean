import Lending.Threshold

/-! Warnings: what is worth telling the author of a policy but stops nothing.

A computation that can fail and can warn gives a `Noted` answer: the warnings in the order in
which they came up, also those before a failure, beside the outcome. Messages below warnings are
left out, no answer depends on them. -/
namespace Lending

inductive Warning where
  /-- A member of a document that its reader does not know. -/
  | unknownMember (member context : String) (suggestion : Option String)
  | unknownRuleField (rule field : String)
  | ruleSkipped (rule reason : String)
  /-- An override brings a threshold to a rule with several comparisons. -/
  | thresholdIgnored (rule : String)
  | overrideIgnored (rule : String)
  | unreachable (node : String)
  /-- A condition node's threshold does not suit its operator. -/
  | falseBranch (node : String) (m : Threshold.Malformed)
  | falseCondition (node : String) (m : Threshold.Malformed)
  | defaultStrategy (node branch strategy : String)
  deriving DecidableEq, Repr

def Warning.message : Warning → String
  | .unknownMember member context suggestion =>
    s!"Unknown field '{member}' in {context}." ++
      match suggestion with
      | some known => s!" Did you mean '{known}'?"
      | none => ""
  | .unknownRuleField rule field => s!"Rule '{rule}' references unknown field '{field}', skipped"
  | .ruleSkipped rule reason => s!"Rule '{rule}' skipped: {reason}"
  | .thresholdIgnored rule =>
    s!"Override for compound rule '{rule}' carries a threshold, ignored"
  | .overrideIgnored rule => s!"Override for unknown rule '{rule}' ignored"
  | .unreachable node => s!"Node '{node}' is not reachable from the root"
  | .falseBranch node m => s!"Node '{node}': {m.message}, taking the false branch"
  | .falseCondition node m => s!"Node '{node}': {m.message}, sub-condition is false"
  | .defaultStrategy node branch strategy =>
    s!"Node '{node}' has no child for branch '{branch}', using default strategy '{strategy}'"

/-- An outcome with the warnings that came up on the way. -/
structure Noted (ε α : Type) where
  warnings : List Warning
  outcome : Except ε α

namespace Noted
variable {ε ε' α β : Type}

protected def pure (a : α) : Noted ε α :=
  ⟨[], .ok a⟩

protected def bind (x : Noted ε α) (f : α → Noted ε β) : Noted ε β :=
  match x.outcome with
  | .ok a => ⟨x.warnings ++ (f a).warnings, (f a).outcome⟩
  | .error e => ⟨x.warnings, .error e⟩

instance : Monad (Noted ε) where
  pure := Noted.pure
  bind := Noted.bind

/-- An outcome without warnings. -/
def ofExcept (x : Except ε α) : Noted ε α :=
  ⟨[], x⟩

instance : MonadLift (Except ε) (Noted ε) where
  monadLift := ofExcept

def fail (e : ε) : Noted ε α :=
  ⟨[], .error e⟩

def warn (ws : List Warning) : Noted ε Unit :=
  ⟨ws, .ok ()⟩

def mapError (f : ε → ε') (x : Noted ε α) : Noted ε' α :=
  ⟨x.warnings, x.outcome.mapError f⟩

/-- The results of a list's members, in order, up to the first failure. -/
def forEach (f : α → Noted ε β) : List α → Noted ε (List β)
  | [] => pure []
  | a :: rest => do
    let b ← f a
    let bs ← forEach f rest
    return b :: bs

@[simp] theorem outcome_pure (a : α) : (pure a : Noted ε α).outcome = .ok a := rfl

@[simp] theorem outcome_bind (x : Noted ε α) (f : α → Noted ε β) :
    (x >>= f).outcome = x.outcome >>= fun a => (f a).outcome := by
  obtain ⟨ws, _ | a⟩ := x <;> rfl

@[simp] theorem outcome_ofExcept (x : Except ε α) : (ofExcept x).outcome = x := rfl

@[simp] theorem outcome_liftM (x : Except ε α) : (liftM x : Noted ε α).outcome = x := rfl

@[simp] theorem outcome_mapError (f : ε → ε') (x : Noted ε α) :
    (x.mapError f).outcome = x.outcome.mapError f := rfl

@[simp] theorem outcome_fail (e : ε) : (fail e : Noted ε α).outcome = .error e := rfl

@[simp] theorem outcome_warn (ws : List Warning) : (warn ws : Noted ε Unit).outcome = .ok () := rfl

end Noted

end Lending
