import Retry.Proofs.Fault.Chain

namespace Retry

/-- What an error gets into on its way up: another one that carries it, or a message. -/
inductive Casing where
  | io (kind : IoKind)
  | message (text : String)
  deriving DecidableEq, Repr

namespace Casing

def around : Casing → Fault → Fault
  | io kind, f => .io (.carrying kind f)
  | message text, f => .wrapped text f

/-- Whether what is in a stack of casings, the outermost of them first, is carried directly. -/
def carries (stack : List Casing) : Bool :=
  match stack.getLast? with
  | some (io _) => true
  | some (message _) => false
  | none => false

end Casing

namespace Fault

/-- `f` in a stack of casings, of which the first is the outermost. -/
def cased (f : Fault) (stack : List Casing) : Fault := stack.foldr Casing.around f

/-- What a walk through a stack of casings comes to behind them: the chain of `f`, or only what `f`
came from if it is carried directly. -/
def reached (f : Fault) (stack : List Casing) : List Fault :=
  if Casing.carries stack then f.causes else f.chain

section Walk

variable {β : Type} {p : Fault → Option β} {f x : Fault} {stack : List Casing}

theorem cased_concat (f : Fault) (stack : List Casing) (c : Casing) :
    f.cased (stack ++ [c]) = (c.around f).cased stack := by
  rw [cased, List.foldr_append]
  rfl

theorem eq_none_cased (hp : ∀ c ∈ stack, ∀ g, p (Casing.around c g) = none) (hf : p f = none) :
    p (f.cased stack) = none := by
  cases stack with
  | nil => exact hf
  | cons c stack => exact hp c List.mem_cons_self _

/-- A fault of which nothing is picked may as well be passed over. -/
theorem filterMap_chain (hf : p f = none) : f.chain.filterMap p = f.causes.filterMap p := by
  rw [chain, List.filterMap_cons, hf]

theorem filterMap_cased (hp : ∀ c ∈ stack, ∀ g, p (Casing.around c g) = none) (hf : p f = none) :
    (f.cased stack).chain.filterMap p = f.chain.filterMap p := by
  induction stack with
  | nil => rfl
  | cons c stack ih =>
    have hrest : ∀ c ∈ stack, ∀ g, p (Casing.around c g) = none := fun c hc =>
      hp c (List.mem_cons_of_mem _ hc)
    have hfirst : p (f.cased (c :: stack)) = none := eq_none_cased hp hf
    rw [filterMap_chain hfirst, ← ih hrest]
    cases c with
    | io kind => exact (filterMap_chain (eq_none_cased hrest hf)).symm
    | message text => rfl

/-- Whatever casings do not say comes from behind them. -/
theorem filterMap_cased_eq (hp : ∀ c ∈ stack, ∀ g, p (Casing.around c g) = none) :
    (f.cased stack).chain.filterMap p = (f.reached stack).filterMap p := by
  -- The innermost casing decides whether the walk comes to `f` itself.
  rcases List.eq_nil_or_concat stack with rfl | ⟨outer, c, rfl⟩
  · rfl
  · rw [List.concat_eq_append] at hp ⊢
    have houter : ∀ c ∈ outer, ∀ g, p (Casing.around c g) = none := fun c hc =>
      hp c (List.mem_append_left _ hc)
    have hc : p (c.around f) = none := hp c List.mem_concat_self f
    rw [cased_concat, filterMap_cased houter hc, filterMap_chain hc, reached, Casing.carries,
      List.getLast?_concat]
    cases c <;> rfl

theorem findSome?_cased (hp : ∀ c ∈ stack, ∀ g, p (Casing.around c g) = none) :
    (f.cased stack).chain.findSome? p = (f.reached stack).findSome? p := by
  rw [← List.head?_filterMap, filterMap_cased_eq hp, List.head?_filterMap]

theorem mem_cased_iff (hx : ∀ c ∈ stack, ∀ g, Casing.around c g ≠ x) :
    x ∈ (f.cased stack).chain ↔ x ∈ f.reached stack := by
  classical
  let p : Fault → Option Fault := Option.guard (· = x)
  have hp : ∀ c ∈ stack, ∀ g, p (Casing.around c g) = none := fun c hc g => by
    simp [p, hx c hc g]
  have hmem : ∀ chain : List Fault, x ∈ chain ↔ x ∈ chain.filterMap p := by
    simp [p]
  rw [hmem, filterMap_cased_eq hp, ← hmem]

end Walk

theorem length_causes_lt {f g : Fault} (h : g ∈ f.causes) : g.causes.length < f.causes.length := by
  induction hlength : f.causes.length using Nat.strongRecOn generalizing f with
  | _ n ih =>
    rw [causes_eq] at h hlength
    cases hsource : f.source? with
    | none => simp [hsource] at h
    | some source =>
      rw [hsource] at h hlength
      have hshorter : source.causes.length < n := by
        rw [← hlength]
        exact Nat.lt_succ_self _
      rcases List.mem_cons.mp h with rfl | h
      · exact hshorter
      · exact Nat.lt_trans (ih _ hshorter h rfl) hshorter

theorem not_mem_causes (f : Fault) : f ∉ f.causes := fun h => Nat.lt_irrefl _ (length_causes_lt h)

theorem mem_reached_iff (f : Fault) (stack : List Casing) :
    f ∈ f.reached stack ↔ Casing.carries stack = false := by
  rw [reached]
  cases Casing.carries stack with
  | false => simp [chain]
  | true => simpa using f.not_mem_causes

/-- A chain tells of a cancellation just if it comes to a cancelled context before any client
failure that would be worth a retry. -/
theorem first_cancelled_iff (f : Fault) :
    First Decides f.chain ⟨false, "error reports not retryable"⟩ ↔
      ∃ before after, f.chain = before ++ context .cancelled :: after ∧
        ∀ g ∈ before, ¬ g.IsClient .timeout ∧ ¬ g.IsClient .connect := by
  constructor
  · rintro ⟨before, g, after, hchain, hsays, hsilent⟩
    cases hsays
    refine ⟨before, after, hchain, fun g hg => ⟨fun h => ?_, fun h => ?_⟩⟩
    · exact hsilent g hg _ (.timeout h)
    · exact hsilent g hg _ (.connect h)
  · rintro ⟨before, after, hchain, hclients⟩
    refine ⟨before, _, after, hchain, .cancelled, fun g hg w hw => ?_⟩
    cases hw with
    | timeout h => exact (hclients g hg).1 h
    | connect h => exact (hclients g hg).2 h
    | deadline => exact not_context_of_mem hchain _ hg
    | cancelled => exact not_context_of_mem hchain _ hg

section Seen

variable {e : IoFault} {v : Verdict} {stack : List Casing}

/-- A transport that failed with a transient error is worth a retry if no cancellation decides. -/
theorem transportVerdict_io_iff (he : e.verdict? = some v) :
    (io e).transportVerdict.retryable = false ↔
      First Decides (io e).chain ⟨false, "error reports not retryable"⟩ := by
  have hpasses : (io e).Passes v := (ioVerdict?_eq_some_iff (io e) v).mp he
  constructor
  · intro hpermanent
    rcases ((io e).transportVerdict_eq_iff _).mp rfl with hfirst | ⟨-, hfirst⟩ | ⟨-, hsilent, -⟩
    · obtain ⟨before, g, after, hchain, hsays, hsilent⟩ := hfirst
      generalize (io e).transportVerdict = w at hpermanent hsays
      cases hsays with
      | timeout | connect | deadline => cases hpermanent
      | cancelled => exact ⟨before, _, after, hchain, .cancelled, hsilent⟩
    · obtain ⟨-, g, -, -, hsays, -⟩ := hfirst
      generalize (io e).transportVerdict = w at hpermanent hsays
      cases hsays
      cases hpermanent
    · exact absurd hpasses (hsilent _ List.mem_cons_self _)
  · intro hfirst
    rw [((io e).transportVerdict_eq_iff _).mpr (Or.inl hfirst)]

variable (hstack : ∀ kind, Casing.io kind ∈ stack → kind.transient? = none)

include hstack in
/-- Casings of kinds that are not transient say nothing of a retry. -/
theorem chainVerdict?_cased (f : Fault) :
    (f.cased stack).chainVerdict? = (f.reached stack).findSome? ioVerdict? := by
  refine findSome?_cased fun c hc g => ?_
  cases c with
  | io kind => exact congrArg (Option.map Verdict.transient) (hstack kind hc)
  | message text => rfl

include hstack in
theorem transportVerdict_cased (f : Fault) : (f.cased stack).transportVerdict =
    (((f.reached stack).findSome? causeVerdict?).or
      ((f.reached stack).findSome? ioVerdict?)).getD (.permanent "transport error") := by
  have hcause : (f.cased stack).chain.findSome? causeVerdict? =
      (f.reached stack).findSome? causeVerdict? := findSome?_cased fun c _ g => by cases c <;> rfl
  rw [transportVerdict, hcause, chainVerdict?_cased hstack]

include hstack in
/-- No casing is taken for the transient error that is inside. -/
theorem mem_cased_io_iff (he : e.verdict? = some v) :
    io e ∈ ((io e).cased stack).chain ↔ Casing.carries stack = false := by
  rw [mem_cased_iff, mem_reached_iff]
  rintro c hc g heq
  cases c with
  | io kind =>
    cases heq
    rw [IoFault.verdict?, IoFault.kind, hstack kind hc] at he
    cases he
  | message text => cases heq

end Seen

/-- A transient error inside others and inside messages stands in the chain of the outermost one
unless it is carried directly. If it does, it speaks for the chain; and a transport that failed with
all of this is worth a retry, unless the error itself came from a cancelled context and from no
client failure that would be worth one before that. If it does not, the verdicts are those on what
it came from. -/
theorem seen_in_chain {e : IoFault} {v : Verdict} (he : e.verdict? = some v) (stack : List Casing)
    (hstack : ∀ kind, Casing.io kind ∈ stack → kind.transient? = none) :
    let outer := (io e).cased stack
    (io e ∈ outer.chain ↔ Casing.carries stack = false) ∧
    (io e ∈ outer.chain →
      outer.chainVerdict? = some v ∧
      (outer.transportVerdict.retryable = false ↔
        ∃ before after, (io e).chain = before ++ context .cancelled :: after ∧
          ∀ g ∈ before, ¬ g.IsClient .timeout ∧ ¬ g.IsClient .connect)) ∧
    (io e ∉ outer.chain →
      outer.chainVerdict? = e.source?.bind chainVerdict? ∧
      outer.transportVerdict =
        e.source?.elim (.permanent "transport error") transportVerdict) := by
  intro outer
  have hmem : io e ∈ outer.chain ↔ Casing.carries stack = false := mem_cased_io_iff hstack he
  refine ⟨hmem, fun hseen => ?_, fun hunseen => ?_⟩
  · have hreached : (io e).reached stack = (io e).chain := by
      rw [reached, hmem.mp hseen]
      rfl
    have hchain : outer.chainVerdict? = (io e).chainVerdict? := by
      rw [chainVerdict?_cased hstack, hreached, chainVerdict?]
    have htransport : outer.transportVerdict = (io e).transportVerdict := by
      rw [transportVerdict_cased hstack, hreached, transportVerdict, chainVerdict?]
    refine ⟨?_, ?_⟩
    · rw [hchain, chainVerdict?, chain, List.findSome?_cons]
      simp only [ioVerdict?, he]
    · rw [htransport, transportVerdict_io_iff he, first_cancelled_iff]
  · have hcarries : Casing.carries stack = true := by simpa [hmem] using hunseen
    have hreached : (io e).reached stack = e.source?.elim [] chain := by
      rw [reached, if_pos hcarries]
      exact causes_eq (io e)
    rw [chainVerdict?_cased hstack, transportVerdict_cased hstack, hreached]
    cases e.source? <;> exact ⟨rfl, rfl⟩

/-- What is in a message is seen from as far out as one likes. Without the message the timeout is
carried directly, and what it came from speaks in its place. -/
theorem seen_in_chain_of_timeout :
    let late : IoFault := .carrying .timedOut (wrapped "lookup" (io (.plain .interrupted)))
    let seen := (io late).cased [.io .other, .message "read", .io .unexpectedEof, .message "line"]
    let unseen := (io late).cased [.message "read", .io .other]
    (late.verdict? = some ⟨true, "timed out"⟩ ∧ seen.chainVerdict? = some ⟨true, "timed out"⟩ ∧
        seen.transportVerdict.retryable = true) ∧
      unseen.chainVerdict? = some ⟨true, "interrupted"⟩ ∧
      unseen.transportVerdict = ⟨true, "interrupted"⟩ := by
  intro late seen unseen
  have hlate : late.verdict? = some ⟨true, "timed out"⟩ := rfl
  refine ⟨⟨hlate, ?_⟩, ?_⟩
  · obtain ⟨hmem, hseen, -⟩ := seen_in_chain hlate
      [.io .other, .message "read", .io .unexpectedEof, .message "line"]
      (by simp [IoKind.transient?])
    obtain ⟨hchain, htransport⟩ := hseen (hmem.mpr rfl)
    refine ⟨hchain, ?_⟩
    rw [← Bool.not_eq_false, htransport]
    rintro ⟨before, after, hcancelled, -⟩
    have hsource : (io late).chain = [io late, io (.plain .interrupted)] := rfl
    have hnone : context .cancelled ∈ (io late).chain := by
      rw [hcancelled]
      exact List.mem_append_right _ List.mem_cons_self
    rw [hsource] at hnone
    simp [late] at hnone
  · obtain ⟨hmem, -, hunseen⟩ := seen_in_chain hlate [.message "read", .io .other]
      (by simp [IoKind.transient?])
    exact hunseen fun h => absurd (hmem.mp h) (by decide)

/-- A reset that another error carries is not seen, and the retry that it is worth is not made; nor
is one made after a reset that came from a cancelled context. -/
theorem reset_carried_unseen :
    let reset : IoFault := .plain .connectionReset
    let abandoned : IoFault := .carrying .connectionReset (wrapped "body" (context .cancelled))
    (reset.verdict? = some ⟨true, "connection reset"⟩ ∧ IoKind.other.transient? = none ∧
        ((io reset).cased [.io .other]).chainVerdict? = none ∧
        ((io reset).cased [.io .other]).transportVerdict = ⟨false, "transport error"⟩) ∧
      abandoned.verdict? = some ⟨true, "connection reset"⟩ ∧
      ((io abandoned).cased []).transportVerdict = ⟨false, "error reports not retryable"⟩ :=
  ⟨⟨rfl, rfl, rfl, rfl⟩, rfl, rfl⟩

end Fault

end Retry
