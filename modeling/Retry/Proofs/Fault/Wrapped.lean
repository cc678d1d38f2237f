import Retry.Proofs.Fault.Chain

namespace Retry

/-- What a fault is put into on its way up. -/
inductive Wrapper where
  | message (text : String)
  | transport
  /-- The HTTP fault of a failed transport, through which the transport shows. -/
  | http
  deriving DecidableEq, Repr

def Wrapper.around : Wrapper → Fault → Fault
  | message text, f => .wrapped text f
  | transport, f => .transport f
  | http, f => .http (.transport f)

namespace Fault

/-- `f` in a stack of wrappers, of which the first is the outermost. -/
def within (f : Fault) (stack : List Wrapper) : Fault := stack.foldr Wrapper.around f

/-- Whether the level of the transport is dropped or not, what is inside a wrapper comes next. -/
theorem chain_around (w : Wrapper) (f : Fault) : (w.around f).chain = w.around f :: f.chain := by
  cases w <;> rfl

theorem ioVerdict?_around (w : Wrapper) (f : Fault) : (w.around f).ioVerdict? = none := by
  cases w <;> rfl

theorem causeVerdict?_around (w : Wrapper) (f : Fault) : (w.around f).causeVerdict? = none := by
  cases w <;> rfl

/-- A search that wrappers do not answer finds through them what it finds without them. -/
theorem findSome?_within {p : Fault → Option Verdict} (hp : ∀ w f, p (Wrapper.around w f) = none)
    (f : Fault) (stack : List Wrapper) :
    (f.within stack).chain.findSome? p = f.chain.findSome? p := by
  induction stack with
  | nil => rfl
  | cons w stack ih =>
    have hchain : (f.within (w :: stack)).chain =
        w.around (f.within stack) :: (f.within stack).chain := chain_around w (f.within stack)
    rw [hchain, List.findSome?_cons, hp, ih]

theorem chainVerdict?_within (f : Fault) (stack : List Wrapper) :
    (f.within stack).chainVerdict? = f.chainVerdict? :=
  findSome?_within ioVerdict?_around f stack

theorem transportVerdict_within (f : Fault) (stack : List Wrapper) :
    (f.within stack).transportVerdict = f.transportVerdict := by
  simp only [transportVerdict, chainVerdict?_within, findSome?_within causeVerdict?_around]

end Fault

/-- What an HTTP fault reports of itself is what is thought of it. -/
theorem HttpFault.retryable_capabilities (f : HttpFault) :
    f.capabilities.verdict?.map (·.retryable) = some f.verdict.retryable := by
  have hword : f.capabilities.retryable = some f.verdict.retryable := rfl
  unfold Capabilities.verdict?
  rw [hword]
  cases f.verdict.retryable <;> rfl

/-- Wrapping changes no verdict: neither that of the chain, nor that on a failed transport; and an
HTTP fault around the whole stack is classified, and reports of itself, as a transport that failed
with the innermost fault. -/
theorem Fault.wrapping_changes_no_verdict (f : Fault) (stack : List Wrapper) :
    (f.within stack).chainVerdict? = f.chainVerdict? ∧
    (f.within stack).transportVerdict = f.transportVerdict ∧
    (HttpFault.transport (f.within stack)).verdict = f.transportVerdict ∧
    (HttpFault.transport (f.within stack)).capabilities.verdict?.map (·.retryable) =
      some f.transportVerdict.retryable := by
  have hverdict : (HttpFault.transport (f.within stack)).verdict = f.transportVerdict :=
    f.transportVerdict_within stack
  refine ⟨f.chainVerdict?_within stack, f.transportVerdict_within stack, hverdict, ?_⟩
  rw [HttpFault.retryable_capabilities, hverdict]

end Retry
