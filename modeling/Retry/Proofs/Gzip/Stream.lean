import Mathlib.Algebra.Order.Ring.Nat
import Retry.Proofs.Gzip.Member

namespace Retry.Gzip

/-- Bytes that come out, and what is behind them. -/
structure Stream where
  bytes : Bytes
  ending : Except Fault Unit

def stream (b : Bytes) : Stream :=
  match skipHeader b with
  | .error e => ⟨[], .error e⟩
  | .ok b =>
    let r := inflate b
    ⟨r.output.toList.take (delivered r),
      r.ending.bind fun s => checkTrailer r.output.toList s.align.bytes⟩

/-- What a reader may end up with, that has room for so many bytes. -/
inductive Gathers : Nat → Stream → Except Fault Bytes → Prop where
  | full {s : Stream} : Gathers 0 s (.ok [])
  | ended {room : Nat} {ending : Except Fault Unit} :
      Gathers (room + 1) ⟨[], ending⟩ (ending.map fun _ => [])
  | piece {room : Nat} {piece rest : Bytes} {ending : Except Fault Unit} {r : Except Fault Bytes}
      (hsome : piece ≠ []) (hfits : piece.length ≤ room)
      (hrest : Gathers (room - piece.length) ⟨rest, ending⟩ r) :
      Gathers room ⟨piece ++ rest, ending⟩ (r.map (piece ++ ·))

/-- The sizes of the pieces make no difference. -/
theorem Gathers.eq {room : Nat} {s : Stream} {r : Except Fault Bytes} (h : Gathers room s r) :
    r = if room ≤ s.bytes.length then .ok (s.bytes.take room)
      else s.ending.map fun _ => s.bytes := by
  induction h with
  | full => rfl
  | ended => rfl
  | @piece room piece rest ending r hsome hfits hrest ih =>
    have hlength : (piece ++ rest).length = piece.length + rest.length := List.length_append
    rw [ih]
    by_cases hroom : room ≤ (piece ++ rest).length
    · have hroom' : room - piece.length ≤ rest.length := by omega
      have htake : (piece ++ rest).take room = piece ++ rest.take (room - piece.length) := by
        rw [List.take_append, List.take_of_length_le hfits]
      rw [if_pos hroom, if_pos hroom', htake]
      rfl
    · have hroom' : ¬ room - piece.length ≤ rest.length := by omega
      rw [if_neg hroom, if_neg hroom']
      cases ending <;> rfl

/-- There is always something that a reader ends up with. -/
theorem exists_gathers (room : Nat) (s : Stream) : ∃ r, Gathers room s r := by
  obtain ⟨bytes, ending⟩ := s
  induction bytes generalizing room with
  | nil =>
    cases room with
    | zero => exact ⟨_, .full⟩
    | succ room => exact ⟨_, .ended⟩
  | cons b bytes ih =>
    cases room with
    | zero => exact ⟨_, .full⟩
    | succ room =>
      obtain ⟨r, hr⟩ := ih room
      exact ⟨_, @Gathers.piece (room + 1) [b] bytes ending r (List.cons_ne_nil _ _)
        (Nat.succ_le_succ (Nat.zero_le _)) hr⟩

/-- The room that is left for a limit that fits a word: one byte more, if that fits as well. -/
def roomFor (limit : Nat) : Nat := min (limit + 1) (2 ^ 64 - 1)

theorem stream_of_holds {b data : Bytes} (h : Holds b data) : stream b = ⟨data, .ok ()⟩ := by
  obtain ⟨hheader, hdata, htrailer⟩ := h
  rename_i rest output s
  have hall : output.toList.take (delivered ⟨output, .ok s⟩) = output.toList :=
    List.take_of_length_le (Nat.le_of_eq Array.length_toList)
  simp only [stream, hheader, hdata, hall, Except.bind, htrailer]

/-- Of a member, a reader takes the data, up to the one byte that says that they are too large. -/
theorem gathers_iff_of_holds {b data : Bytes} {limit : Nat} {r : Except Fault Bytes}
    (h : Holds b data) (hfits : data.length < 2 ^ 64) :
    Gathers (roomFor limit) (stream b) r ↔ r = .ok (data.take (limit + 1)) := by
  rw [stream_of_holds h]
  have htaken : ∀ r, Gathers (roomFor limit) ⟨data, .ok ()⟩ r → r = .ok (data.take (limit + 1)) := by
    intro r hr
    have hroom : roomFor limit = limit + 1 ∨
        data.length ≤ roomFor limit ∧ data.length ≤ limit + 1 := by
      unfold roomFor
      omega
    rw [hr.eq]
    dsimp only
    split
    · rcases hroom with hroom | ⟨hroom, hlimit⟩
      · rw [hroom]
      · rw [List.take_of_length_le hroom, List.take_of_length_le hlimit]
    · have hlimit : data.length ≤ limit + 1 := by omega
      rw [List.take_of_length_le hlimit]
      rfl
  constructor
  · exact htaken r
  · rintro rfl
    obtain ⟨r, hr⟩ := exists_gathers (roomFor limit) ⟨data, .ok ()⟩
    rwa [htaken r hr] at hr

end Retry.Gzip
