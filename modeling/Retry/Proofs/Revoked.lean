import Retry.Proofs.Punctual

namespace Retry

namespace Policy

/-- Giving the context of an attempt back cancels nothing of the caller's. -/
theorem onward_release {ε : Type} (p : Policy ε) (ctx : Context) (l l' : Timeline) :
    ∃ revoked, l'.Onward revoked (p.release (p.attemptContext ctx l).1 l') ∧
      ∀ t ∈ revoked, t.covers ctx.token = false := by
  cases ht : p.attemptTimeout with
  | none =>
    simp only [release, ht, Option.isSome_none, Bool.false_eq_true, if_false]
    exact ⟨[], l'.onward_refl, fun _ hmem => absurd hmem List.not_mem_nil⟩
  | some timeout =>
    simp only [release, ht, Option.isSome_some, if_true]
    refine ⟨[_], l'.onward_cancel _, fun t hmem => ?_⟩
    rw [List.mem_singleton.mp hmem, token_attemptContext ht]
    exact Token.not_covers_parent _ _

variable {η ε α : Type} [OfReason ε] {p : Policy ε} {ctx : Context} {op : Operation η ε α}
  {ops rest : List (Operation η ε α)} {l : Timeline} {ws : Words} {s : Loop}
  {journal : List (Entry η ε α)}

/-- Some operation of a run cancelled `t` while it was watched. -/
def Revokes (p : Policy ε) (ctx : Context) (ops : List (Operation η ε α)) (l : Timeline)
    (ws : Words) (t : Token) : Prop :=
  ∃ number op own start line, Made ops (p.run ctx ops l ws).journal number op own start ∧
    (line, t) ∈ (op own).revoked own start

theorem onward_tried (p : Policy ε) (ctx : Context) (op : Operation η ε α) (s : Loop) :
    ∃ revoked, s.line.Onward revoked (p.tried ctx op s).line ∧
      ∀ t ∈ revoked, t.covers ctx.token = true →
        ∃ line, (line, t) ∈ (op (p.attemptContext ctx s.line).1).revoked
          (p.attemptContext ctx s.line).1 (p.attemptContext ctx s.line).2 := by
  obtain ⟨given, hrelease, hgiven⟩ :=
    p.onward_release ctx s.line (p.watched ctx op s.line).line
  have hplayed := (p.plays_watched ctx op s.line).onward
  refine ⟨_, ((p.onward_attemptContext ctx s.line).trans hplayed).trans hrelease, ?_⟩
  intro t hmem hc
  rcases List.mem_append.mp hmem with hmem | hmem
  · obtain ⟨⟨line, _⟩, hrevoked, rfl⟩ := List.mem_map.mp hmem
    exact ⟨line, hrevoked⟩
  · rw [hgiven t hmem] at hc
    cases hc

theorem Turn.onward {r : Round η ε α} (h : p.Turn ctx op s r) :
    (p.tried ctx op s).line.Onward [] r.line := by
  cases h with
  | stuck | value | lost | stopped => exact Timeline.onward_refl _
  | interrupted hr hlive hd hb | again hr hlive hd hb => exact onward_backOff hb

theorem Reaches.onward_round (h : p.Reaches ctx ops l ws (op :: rest) s journal)
    (hlive : ctx.err s.line = none) : ∃ revoked, s.line.Onward revoked (p.round ctx op s).line ∧
      ∀ t ∈ revoked, t.covers ctx.token = true → p.Revokes ctx ops l ws t := by
  obtain ⟨revoked, htried, hrevoked⟩ := p.onward_tried ctx op s
  refine ⟨_, htried.trans (p.turn_round ctx op s).onward, fun t hmem hc => ?_⟩
  obtain ⟨line, htoken⟩ := hrevoked t (List.append_nil revoked ▸ hmem) hc
  exact ⟨_, op, _, _, line, made_iff.mpr ⟨rest, s, journal, h, hlive, rfl, rfl⟩, htoken⟩

/-- What a run cancels of the caller's context on its way to a state, its operations cancel. -/
theorem Reaches.onward (h : p.Reaches ctx ops l ws rest s journal) :
    ∃ revoked, l.Onward revoked s.line ∧
      ∀ t ∈ revoked, t.covers ctx.token = true → p.Revokes ctx ops l ws t := by
  induction h with
  | start => exact ⟨[], l.onward_refl, fun _ hmem => nomatch hmem⟩
  | again h hlive hround ih =>
    obtain ⟨revoked, honward, hrevoked⟩ := ih
    obtain ⟨more, hmore, hwho⟩ := h.onward_round hlive
    rw [hround] at hmore
    refine ⟨_, honward.trans hmore, fun t hmem hc => ?_⟩
    exact (List.mem_append.mp hmem).elim (hrevoked t · hc) (hwho t · hc)

theorem onward_run (p : Policy ε) (ctx : Context) (ops : List (Operation η ε α)) (l : Timeline)
    (ws : Words) : ∃ revoked, l.Onward revoked (p.run ctx ops l ws).line ∧
      ∀ t ∈ revoked, t.covers ctx.token = true → p.Revokes ctx ops l ws t := by
  obtain ⟨rest, s, journal, report, hreach, hlast, hrun⟩ := p.exists_last ctx ops l ws
  obtain ⟨revoked, honward, hrevoked⟩ := hreach.onward
  simp only [hrun, Report.after]
  cases hlast with
  | abandoned | starved => exact ⟨revoked, honward, hrevoked⟩
  | stopped hlive hround =>
    obtain ⟨more, hmore, hwho⟩ := hreach.onward_round hlive
    rw [hround] at hmore
    refine ⟨_, honward.trans hmore, fun t hmem hc => ?_⟩
    exact (List.mem_append.mp hmem).elim (hrevoked t · hc) (hwho t · hc)

/-- After a run the caller's context is cancelled if it was before, if the time for it had come, or
if an operation cancelled it; a run does not cancel it of itself. -/
theorem err_run_eq_cancelled_iff : ctx.err (p.run ctx ops l ws).line = some .cancelled ↔
    l.isCancelled ctx.token = true ∨
      (∃ plan ∈ l.planned, plan ∉ (p.run ctx ops l ws).line.planned ∧
        plan.moment ≤ (p.run ctx ops l ws).line.now ∧ plan.token.covers ctx.token = true) ∨
      ∃ t, p.Revokes ctx ops l ws t ∧ t.covers ctx.token = true := by
  obtain ⟨revoked, honward, hrevoked⟩ := p.onward_run ctx ops l ws
  rw [Context.err_eq_cancelled_iff]
  constructor
  · intro hcancelled
    rcases (honward.isCancelled_iff _).mp hcancelled with hold | ⟨t, hmem, hc⟩ | hplan
    · exact Or.inl hold
    · exact Or.inr (Or.inr ⟨t, hrevoked t hmem hc, hc⟩)
    · obtain ⟨plan, hplan, hgone, hc⟩ := hplan
      exact Or.inr (Or.inl ⟨plan, hplan, hgone, honward.due plan hplan hgone, hc⟩)
  · rintro (hold | ⟨plan, hplan, hgone, -, hc⟩ | ⟨t, ⟨number, op, own, start, line, hmade, ht⟩, hc⟩)
    · exact (honward.isCancelled_iff _).mpr (Or.inl hold)
    · exact (honward.isCancelled_iff _).mpr (Or.inr (Or.inr ⟨plan, hplan, hgone, hc⟩))
    · exact (returns_of_revoked hmade ht hc).2.1

end Policy

end Retry
