import Maskura.Lib.Chunks
import Maskura.Records.Decoder

/-!
Draining the decoder, for every format: one record after the other, as long as
preparing the next one makes one ready.
-/

namespace Maskura.Records

open Lib Lib.Run

variable {P : Parsers}

namespace Decoder

/-- A record at the front of the buffer, made ready. -/
theorem emit_eq {d : Decoder} {payload separator rest : Bytes} {consumed : ℕ} {code : Code}
    (hpending : d.pending = payload ++ (separator ++ rest))
    (hconsumed : consumed = payload.length + separator.length) :
    d.emit P payload.length payload.length consumed code = do
      rejectIf (d.limits.maxRecordBytes < payload.length)
        (limitError .recordTooLarge "record" payload.length d.limits.maxRecordBytes)
      validateUtf8 P payload code
      return { d with pending := rest, ready := some ⟨payload, separator⟩, scanOffset := 0 } := by
  have htake : d.pending.take payload.length = payload := by rw [hpending, List.take_left]
  have hfront : d.pending.take consumed = payload ++ separator := by
    rw [hpending, hconsumed, ← List.append_assoc, ← List.length_append, List.take_left]
  have hdrop : d.pending.drop consumed = rest := by
    rw [hpending, hconsumed, ← List.append_assoc, ← List.length_append, List.drop_left]
  rw [emit, htake, hdrop, slice, hfront, List.drop_left]

/-- The decoder after its ready record was taken. -/
def taken (d : Decoder) : Decoder :=
  { d with ready := none, recordsEmitted := d.recordsEmitted + 1 }

theorem drain_succ_of_ready {n : ℕ} {d : Decoder} {record : Record} (h : d.ready = some record) :
    drain P (n + 1) d = (drain P n d.taken >>= fun (records, d) => .ok (record :: records, d)) := by
  simp [drain, nextRecord, h, taken, bind, Except.bind, pure_ok]

/-- Without a record at hand, draining prepares one. -/
theorem drain_succ {n : ℕ} {d : Decoder} (h : d.ready = none) :
    drain P (n + 1) d = (d.prepareNext P d.finished >>= fun d =>
      match d.ready with
      | none => .ok ([], d)
      | some record => drain P n d.taken >>= fun (records, d) => .ok (record :: records, d)) := by
  cases hprep : d.prepareNext P d.finished with
  | error e => simp [drain, nextRecord, h, hprep, bind, Except.bind]
  | ok d' =>
      cases hready : d'.ready with
      | none =>
          have hd : ({ d' with ready := none, recordsEmitted := d'.recordsEmitted } : Decoder) = d' := by
            rw [← hready]
          simp [drain, nextRecord, h, hprep, hready, bind, Except.bind, pure_ok, hd]
      | some record =>
          simp [drain, nextRecord, h, hprep, hready, bind, Except.bind, pure_ok, taken]

/-- A complete decoder has no more to prepare. -/
theorem drainAll_complete {d : Decoder} (hready : d.ready = none) (hcomplete : d.complete = true) :
    d.drainAll P = .ok ([], d) := by
  have hprepare : d.prepareNext P d.finished = .ok d := by simp [prepareNext, hcomplete]
  rw [drainAll, drain_succ hready, hprepare, ok_bind, hready]

theorem drainAll_last {d : Decoder} {record : Record} (hready : d.ready = some record)
    (hcomplete : d.complete = true) : d.drainAll P = .ok ([record], d.taken) := by
  have hprepare : d.taken.prepareNext P d.taken.finished = .ok d.taken := by
    simp [prepareNext, taken, hcomplete]
  have hnone : d.taken.ready = none := rfl
  rw [drainAll, drain_succ_of_ready hready, drain_succ hnone, hprepare, ok_bind, hnone]
  rfl

end Decoder

end Maskura.Records
