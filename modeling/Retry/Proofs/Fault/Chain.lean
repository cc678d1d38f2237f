import Retry.Fault.Judged

namespace Retry

section Chain

mutual

/-- An error of input or output that carries another one has its source, and passes it over. -/
def IoFault.source? : IoFault → Option Fault
  | .plain _ => none
  | .system _ => none
  | .carrying _ payload => payload.source?

/-- What a fault came from directly. -/
def Fault.source? : Fault → Option Fault
  | .message _ => none
  | .wrapped _ source => some source
  | .io fault => fault.source?
  | .context _ => none
  | .transport source => some source
  | .client _ => none
  | .clientOver _ source => some source
  | .decode fault => fault.source?
  | .http fault => fault.source?

def DecodeFault.source? : DecodeFault → Option Fault
  | .decompress fault => some (.io fault)
  | _ => none

/-- A transport failure shows through, so its source is one further down. -/
def HttpFault.source? : HttpFault → Option Fault
  | .transport source => some source
  | .decode fault => some (.decode fault)
  | .request fault => some (.message fault.message)
  | .status _ => none
  | .context _ => none

end

/-- A fault, its source, the source of that, and so on up to a fault without one. -/
inductive Fault.IsChain : Fault → List Fault → Prop where
  | last {f : Fault} (h : f.source? = none) : f.IsChain [f]
  | next {f source : Fault} {rest : List Fault} (h : f.source? = some source)
      (hrest : source.IsChain rest) : f.IsChain (f :: rest)

theorem DecodeFault.causes_eq (f : DecodeFault) : f.causes = f.source?.elim [] Fault.chain := by
  cases f <;> rfl

theorem HttpFault.causes_eq (f : HttpFault) : f.causes = f.source?.elim [] Fault.chain := by
  cases f <;> rfl

mutual

theorem IoFault.causes_eq : ∀ f : IoFault, f.causes = f.source?.elim [] Fault.chain
  | .plain _ => rfl
  | .system _ => rfl
  | .carrying _ payload => payload.causes_eq

theorem Fault.causes_eq : ∀ f : Fault, f.causes = f.source?.elim [] Fault.chain
  | .message _ => rfl
  | .wrapped _ _ => rfl
  | .io fault => fault.causes_eq
  | .context _ => rfl
  | .transport _ => rfl
  | .client _ => rfl
  | .clientOver _ _ => rfl
  | .decode fault => fault.causes_eq
  | .http fault => fault.causes_eq

end

namespace Fault

theorem chain_eq (f : Fault) : f.chain = f :: f.source?.elim [] chain := by
  rw [chain, causes_eq]

theorem isChain_chain (f : Fault) : f.IsChain f.chain := by
  induction hlength : f.chain.length generalizing f with
  | zero => exact absurd (List.eq_nil_of_length_eq_zero hlength) (List.cons_ne_nil _ _)
  | succ n ih =>
    rw [chain_eq] at hlength ⊢
    cases hsource : f.source? with
    | none => exact .last hsource
    | some source =>
      rw [hsource] at hlength
      exact .next hsource (ih source (Nat.succ.inj hlength))

/-- Nothing in a chain stands behind a fault without a source. -/
theorem IsChain.eq_nil {f g : Fault} {chain before after : List Fault} (h : f.IsChain chain)
    (hchain : chain = before ++ g :: after) (hg : g.source? = none) : after = [] := by
  induction h generalizing before with
  | last _ =>
    rcases List.append_eq_singleton_iff.mp hchain.symm with ⟨-, hrest⟩ | ⟨-, hrest⟩
    · exact (List.cons.inj hrest).2
    · cases hrest
  | next hsource hrest ih =>
    cases before with
    | nil =>
      obtain ⟨rfl, -⟩ := List.cons.inj hchain
      rw [hg] at hsource
      cases hsource
    | cons first before => exact ih (List.cons.inj hchain).2

end Fault

end Chain

namespace Fault

section First

variable {p : Fault → Option Verdict} {Says : Fault → Verdict → Prop} {chain : List Fault} {v : Verdict}

/-- The first in a chain that says anything says this. -/
def First (Says : Fault → Verdict → Prop) (chain : List Fault) (v : Verdict) : Prop :=
  ∃ before f after, chain = before ++ f :: after ∧ Says f v ∧ ∀ g ∈ before, ∀ w, ¬ Says g w

def Silent (Says : Fault → Verdict → Prop) (chain : List Fault) : Prop :=
  ∀ g ∈ chain, ∀ w, ¬ Says g w

theorem eq_none_iff (hp : ∀ f v, p f = some v ↔ Says f v) (f : Fault) :
    p f = none ↔ ∀ v, ¬ Says f v := by
  simp only [Option.eq_none_iff_forall_ne_some, ne_eq, hp]

theorem findSome?_eq_some_iff (hp : ∀ f v, p f = some v ↔ Says f v) :
    chain.findSome? p = some v ↔ First Says chain v := by
  simp only [List.findSome?_eq_some_iff, First, hp, eq_none_iff hp]

theorem findSome?_eq_none_iff (hp : ∀ f v, p f = some v ↔ Says f v) :
    chain.findSome? p = none ↔ Silent Says chain := by
  simp only [List.findSome?_eq_none_iff, Silent, eq_none_iff hp]

end First

/-- A failure of a client, whatever its source. -/
def IsClient (f : Fault) (fault : ClientFault) : Prop :=
  f = client fault ∨ ∃ source, f = clientOver fault source

/-- What client failures and done contexts say of a retry. -/
inductive Decides : Fault → Verdict → Prop where
  | timeout {f : Fault} (h : f.IsClient .timeout) : f.Decides ⟨true, "timeout"⟩
  | connect {f : Fault} (h : f.IsClient .connect) : f.Decides ⟨true, "connect failed"⟩
  | deadline : (context .deadlineExceeded).Decides ⟨true, "timeout"⟩
  | cancelled : (context .cancelled).Decides ⟨false, "error reports not retryable"⟩

/-- The kinds of errors that pass, and what they are called. -/
def passing : List (IoKind × String) := [
  (.connectionReset, "connection reset"), (.connectionAborted, "connection aborted"),
  (.notConnected, "not connected"), (.wouldBlock, "resource temporarily unavailable"),
  (.timedOut, "timed out"), (.interrupted, "interrupted"), (.brokenPipe, "broken pipe")]

/-- What an error of input or output says of a retry: nothing, if it is of another kind. -/
inductive Passes : Fault → Verdict → Prop where
  | io {fault : IoFault} {reason : String} (h : (fault.kind, reason) ∈ passing) :
      (io fault).Passes ⟨true, reason⟩

theorem causeVerdict?_eq_some_iff (f : Fault) (v : Verdict) :
    f.causeVerdict? = some v ↔ f.Decides v := by
  constructor
  · intro h
    cases f with
    | client fault =>
      cases fault with
      | timeout => exact Option.some.inj h ▸ .timeout (Or.inl rfl)
      | connect => exact Option.some.inj h ▸ .connect (Or.inl rfl)
      | other => cases h
    | clientOver fault source =>
      cases fault with
      | timeout => exact Option.some.inj h ▸ .timeout (Or.inr ⟨source, rfl⟩)
      | connect => exact Option.some.inj h ▸ .connect (Or.inr ⟨source, rfl⟩)
      | other => cases h
    | context reason =>
      cases reason with
      | cancelled => exact Option.some.inj h ▸ .cancelled
      | deadlineExceeded => exact Option.some.inj h ▸ .deadline
    | message | wrapped | io | transport | decode | http => cases h
  · rintro (⟨rfl | ⟨source, rfl⟩⟩ | ⟨rfl | ⟨source, rfl⟩⟩ | _ | _) <;> rfl

theorem transient?_eq_some_iff (kind : IoKind) (reason : String) :
    kind.transient? = some reason ↔ (kind, reason) ∈ passing := by
  simp only [passing, List.mem_cons, Prod.mk.injEq, List.not_mem_nil, or_false]
  cases kind <;> simp [IoKind.transient?, eq_comm]

theorem ioVerdict?_eq_some_iff (f : Fault) (v : Verdict) : f.ioVerdict? = some v ↔ f.Passes v := by
  constructor
  · intro h
    cases f with
    | io fault =>
      obtain ⟨reason, hreason, rfl⟩ := Option.map_eq_some_iff.mp h
      exact .io ((transient?_eq_some_iff _ _).mp hreason)
    | message | wrapped | context | transport | client | clientOver | decode | http => cases h
  · rintro ⟨hreason⟩
    exact Option.map_eq_some_iff.mpr ⟨_, (transient?_eq_some_iff _ _).mpr hreason, rfl⟩

/-- Two searches in the chain, one after the other: only where the first finds nothing, the second
counts. -/
theorem transportVerdict_eq_iff (f : Fault) (v : Verdict) : f.transportVerdict = v ↔
    First Decides f.chain v ∨
    Silent Decides f.chain ∧ First Passes f.chain v ∨
    Silent Decides f.chain ∧ Silent Passes f.chain ∧ v = ⟨false, "transport error"⟩ := by
  rw [← findSome?_eq_some_iff causeVerdict?_eq_some_iff,
    ← findSome?_eq_none_iff causeVerdict?_eq_some_iff,
    ← findSome?_eq_some_iff ioVerdict?_eq_some_iff, ← findSome?_eq_none_iff ioVerdict?_eq_some_iff]
  unfold transportVerdict chainVerdict?
  cases f.chain.findSome? causeVerdict? with
  | some w => simp
  | none =>
    cases f.chain.findSome? ioVerdict? with
    | some w => simp
    | none => simp [Verdict.permanent, eq_comm]

/-- A done context has no source, so none stands before another one. -/
theorem not_context_of_mem {f : Fault} {before after : List Fault} {g : Fault}
    (hchain : f.chain = before ++ g :: after) (reason : Reason) : context reason ∉ before := by
  intro hmem
  obtain ⟨front, back, rfl⟩ := List.append_of_mem hmem
  rw [List.append_assoc, List.cons_append] at hchain
  have hnil := f.isChain_chain.eq_nil hchain rfl
  exact List.cons_ne_nil _ _ (List.append_eq_nil_iff.mp hnil).2

/-- The verdict on a failed transport is what the first client failure or done context in the chain of
its source says; if there is none, what the first transient error of input or output says, past others
of other kinds; and permanent if there is none of these either. So nothing that stands behind no client
failure but a cancelled context is worth a retry. -/
theorem cause_goes_first (f : Fault) :
    f.IsChain f.chain ∧
    (∀ v, f.transportVerdict = v ↔
      First Decides f.chain v ∨
      Silent Decides f.chain ∧ First Passes f.chain v ∨
      Silent Decides f.chain ∧ Silent Passes f.chain ∧ v = ⟨false, "transport error"⟩) ∧
    ∀ before after, f.chain = before ++ context .cancelled :: after →
      (∀ g ∈ before, ¬ g.IsClient .timeout ∧ ¬ g.IsClient .connect) →
      f.transportVerdict.retryable = false := by
  refine ⟨f.isChain_chain, f.transportVerdict_eq_iff, fun before after hchain hclients => ?_⟩
  have hsilent : ∀ g ∈ before, ∀ w, ¬ g.Decides w := by
    intro g hg w hw
    cases hw with
    | timeout h => exact (hclients g hg).1 h
    | connect h => exact (hclients g hg).2 h
    | deadline => exact not_context_of_mem hchain _ hg
    | cancelled => exact not_context_of_mem hchain _ hg
  have hfirst : First Decides f.chain ⟨false, "error reports not retryable"⟩ :=
    ⟨before, _, after, hchain, .cancelled, hsilent⟩
  rw [(f.transportVerdict_eq_iff _).mpr (Or.inl hfirst)]

/-- A connection was reset, with a payload that came from a cancelled context. -/
private def abandoned : Fault :=
  wrapped "send" (io (.carrying .connectionReset (wrapped "body" (context .cancelled))))

/-- The reset stands closer to the root, and would be worth a retry; but the payload is passed over, and
what it came from decides. -/
theorem cause_goes_first_of_reset :
    First Passes abandoned.chain ⟨true, "connection reset"⟩ ∧
      abandoned.transportVerdict.retryable = false := by
  have hchain : abandoned.chain = [abandoned, io (.carrying .connectionReset
      (wrapped "body" (context .cancelled)))] ++ [context .cancelled] := rfl
  refine ⟨⟨[abandoned], _, _, hchain, .io (by decide), ?_⟩, ?_⟩
  · rintro g hg w ⟨⟩
    cases List.mem_singleton.mp hg
  · obtain ⟨-, -, hcancelled⟩ := cause_goes_first abandoned
    refine hcancelled _ [] hchain fun g hg => ?_
    simp only [List.mem_cons, List.not_mem_nil, or_false] at hg
    rcases hg with rfl | rfl <;> simp [IsClient, abandoned]

end Fault

end Retry
