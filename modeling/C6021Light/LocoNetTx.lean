import C6021Light.Lib.BoundedFifo
import C6021Light.LocoNet.Messages

/-!
# `C6021Light.LocoNetTx`: the LocoNet transmit queue

`AsyncSend` (`LocoNetTx.cpp`) copies a message into a ring buffer of `QueueDepth` entries and
returns whether there was room. `DoBlockingSend` sends the oldest entry and runs on the
low-priority ConsoleTask. The ring buffer comes from the AtomicRingBuffer library. It is a
`BoundedFifo` here: `allocate` fails exactly when the buffer is full.

`calls` is a ghost field. It records every `AsyncSend` call with its result, so that
statements can speak about what a function tried to send. The code does not keep it, and no
definition reads it. Every caller drops the result of `AsyncSend`, so the calls of a program
do not depend on the queue, and `sendAll` gives the queue after a list of calls.
-/

set_option autoImplicit false

namespace C6021Light

/-- `LocoNetTx::QueueDepth`. -/
abbrev kQueueDepth : Nat := 8

/-- `LocoNetTx`, with the history of the `AsyncSend` calls. -/
structure LocoNetTx where
  msgBuffer : BoundedFifo LnMsg kQueueDepth := .empty
  calls : List (LnMsg × Bool) := []

namespace LocoNetTx

/-- `LocoNetTx::AsyncSend`. -/
def asyncSend (tx : LocoNetTx) (msg : LnMsg) : Bool × LocoNetTx :=
  let (accepted, msgBuffer) := tx.msgBuffer.offer msg
  (accepted, { msgBuffer := msgBuffer, calls := tx.calls ++ [(msg, accepted)] })

/-- `LocoNetTx::DoBlockingSend`: the oldest message leaves the queue. -/
def doBlockingSend (tx : LocoNetTx) : LocoNetTx := { tx with msgBuffer := tx.msgBuffer.drop }

/-- The transmit queue after `AsyncSend` calls for `msgs`, in order. -/
def sendAll (tx : LocoNetTx) (msgs : List LnMsg) : LocoNetTx :=
  msgs.foldl (fun tx msg => (tx.asyncSend msg).2) tx

/-- No call leaves the queue as it was. -/
@[simp] theorem sendAll_nil (tx : LocoNetTx) : tx.sendAll [] = tx := rfl

/-- Two lists of calls in sequence are one list. -/
theorem sendAll_append (tx : LocoNetTx) (msgs msgs' : List LnMsg) :
    tx.sendAll (msgs ++ msgs') = (tx.sendAll msgs).sendAll msgs' :=
  List.foldl_append

/-- The queue and the results of a list of calls are those of the bounded queue. -/
theorem sendAll_eq_offerAll :
    ∀ (msgs : List LnMsg) (tx : LocoNetTx),
      (tx.sendAll msgs).msgBuffer = (tx.msgBuffer.offerAll msgs).2 ∧
      (tx.sendAll msgs).calls = tx.calls ++ msgs.zip (tx.msgBuffer.offerAll msgs).1 := by
  intro msgs
  induction msgs with
  | nil => intro tx; simp [BoundedFifo.offerAll]
  | cons msg msgs ih =>
      intro tx
      obtain ⟨hbuf, hcalls⟩ := ih (tx.asyncSend msg).2
      refine ⟨hbuf, ?_⟩
      show ((tx.asyncSend msg).2.sendAll msgs).calls = _
      rw [hcalls]
      simp [asyncSend, BoundedFifo.offerAll]

/-- The calls that a program from `tx` to `tx'` made. -/
def newCalls (tx tx' : LocoNetTx) : List (LnMsg × Bool) :=
  tx'.calls.drop tx.calls.length

/-- Each message with what its call returned. -/
theorem newCalls_sendAll (tx : LocoNetTx) (msgs : List LnMsg) :
    tx.newCalls (tx.sendAll msgs) = msgs.zip (tx.msgBuffer.offerAll msgs).1 := by
  rw [newCalls, (sendAll_eq_offerAll msgs tx).2, List.drop_left]

/-- The messages of the new calls are those that were sent. -/
theorem newCalls_sendAll_map_fst (tx : LocoNetTx) (msgs : List LnMsg) :
    (tx.newCalls (tx.sendAll msgs)).map Prod.fst = msgs := by
  have hlen := tx.msgBuffer.length_offerAll msgs
  rw [newCalls_sendAll, List.map_fst_zip (by omega)]

/-- The calls of two programs in sequence. -/
theorem newCalls_sendAll_append (tx : LocoNetTx) (msgs msgs' : List LnMsg) :
    tx.newCalls (tx.sendAll (msgs ++ msgs'))
      = tx.newCalls (tx.sendAll msgs)
          ++ (tx.sendAll msgs).newCalls ((tx.sendAll msgs).sendAll msgs') := by
  have hcalls : ((tx.sendAll msgs).sendAll msgs').calls
      = tx.calls ++ (msgs.zip (tx.msgBuffer.offerAll msgs).1
          ++ msgs'.zip ((tx.sendAll msgs).msgBuffer.offerAll msgs').1) := by
    rw [(sendAll_eq_offerAll msgs' _).2, (sendAll_eq_offerAll msgs tx).2, List.append_assoc]
  rw [sendAll_append, newCalls, hcalls, List.drop_left, newCalls_sendAll, newCalls_sendAll]

/-- Every call is accepted exactly when the messages fit the queue. -/
theorem newCalls_sendAll_all_accepted (tx : LocoNetTx) (msgs : List LnMsg) :
    (∀ call ∈ tx.newCalls (tx.sendAll msgs), call.2 = true) ↔ msgs.length ≤ tx.msgBuffer.room := by
  have hlen := tx.msgBuffer.length_offerAll msgs
  have hreports : (tx.newCalls (tx.sendAll msgs)).map Prod.snd
      = (tx.msgBuffer.offerAll msgs).1 := by
    rw [newCalls_sendAll, List.map_snd_zip (by omega)]
  rw [← BoundedFifo.offerAll_all_accepted, ← hreports]
  simp

/-- Nothing was called in between. -/
@[simp] theorem newCalls_self (tx : LocoNetTx) : tx.newCalls tx = [] :=
  List.drop_length

/-- A new call is for one of the messages. -/
theorem mem_newCalls_sendAll {tx : LocoNetTx} {msgs : List LnMsg} {call : LnMsg × Bool}
    (h : call ∈ tx.newCalls (tx.sendAll msgs)) : call.1 ∈ msgs := by
  rw [← newCalls_sendAll_map_fst tx msgs]
  exact List.mem_map_of_mem h

/-- The messages that entered the queue among the new calls. -/
def accepted (tx tx' : LocoNetTx) : List LnMsg :=
  ((tx.newCalls tx').filter (·.2)).map (·.1)

/-- Nothing was accepted in between. -/
@[simp] theorem accepted_self (tx : LocoNetTx) : tx.accepted tx = [] := by
  rw [accepted, newCalls_self]
  rfl

/-- Sending the oldest entry accepts nothing. -/
theorem accepted_doBlockingSend (tx : LocoNetTx) : tx.accepted tx.doBlockingSend = [] :=
  tx.accepted_self

/-- A message that was accepted is one of those that were sent. -/
theorem mem_accepted_sendAll {tx : LocoNetTx} {msgs : List LnMsg} {msg : LnMsg}
    (h : msg ∈ tx.accepted (tx.sendAll msgs)) : msg ∈ msgs := by
  obtain ⟨call, hcall, rfl⟩ := List.mem_map.mp h
  exact mem_newCalls_sendAll (List.mem_of_mem_filter hcall)

/-- When every call was accepted, all messages entered the queue. -/
theorem accepted_sendAll_of_all {tx : LocoNetTx} {msgs : List LnMsg}
    (h : ∀ call ∈ tx.newCalls (tx.sendAll msgs), call.2 = true) :
    tx.accepted (tx.sendAll msgs) = msgs := by
  rw [accepted, List.filter_eq_self.mpr h, newCalls_sendAll_map_fst]

/-- One message enters the queue exactly when there is room. -/
theorem accepted_sendAll_singleton (tx : LocoNetTx) (msg : LnMsg) :
    tx.accepted (tx.sendAll [msg]) = if 0 < tx.msgBuffer.room then [msg] else [] := by
  rw [accepted, newCalls_sendAll, BoundedFifo.offerAll_reports]
  by_cases hroom : 0 < tx.msgBuffer.room
  · have hmin : min tx.msgBuffer.room 1 = 1 := by omega
    rw [if_pos hroom, List.length_singleton, hmin]
    rfl
  · have hzero : tx.msgBuffer.room = 0 := by omega
    rw [if_neg hroom, List.length_singleton, hzero]
    rfl

end LocoNetTx

end C6021Light
