/-
The bytes that leave a client socket.

`ClientSocket::send` offers one framed message to a non-blocking socket and drops
what `::send` returns.  The kernel may take a part of the message, or nothing;
the rest is never offered again, and the next message follows all the same.

So the stream stays an initial part of the framed messages as long as nothing is
accepted after a message that was not accepted whole.  Once bytes are owed, there
is a next message of which no byte may go out.
-/
import SamuraiKirby.Network.ConnectedClient
import SamuraiKirby.Transition.Moves

namespace SamuraiKirby

/-- What a non-blocking `::send` does: the kernel accepts a number of bytes, all of them if
there are no more, or the call gives `EAGAIN`. -/
inductive SendResult where
  | accepted (count : Nat)
  | wouldBlock
deriving DecidableEq, Repr

def SendResult.count : SendResult → Nat
  | .accepted count => count
  | .wouldBlock => 0

namespace ClientSocket

open Transition

/-- The bytes of the framed message that the kernel accepts.  The call is made once and its
result is not looked at. -/
def transmit (message : Bytes) (result : SendResult) : Bytes :=
  (send message).take result.count

/-- The framed messages so far, and the bytes of them that the kernel has accepted. -/
structure Stream where
  framed : Bytes
  accepted : Bytes
deriving DecidableEq, Repr

namespace Stream

def empty : Stream := ⟨[], []⟩

/-- One call of `ClientSocket::send`. -/
def step (stream : Stream) (call : Bytes × SendResult) : Except Empty (Stream × List Bytes) :=
  let sent := transmit call.1 call.2
  .ok (⟨stream.framed ++ send call.1, stream.accepted ++ sent⟩, [sent])

/-- A peer that reads what was accepted reads whole messages and at most the beginning of one. -/
def isPrefix : Monitor Unit (Move Stream (Bytes × SendResult) Bytes) where
  next _ _ := ()
  ok _ move := move.after.accepted <+: move.after.framed

/-- No byte is owed from earlier messages, or none is accepted of this one. -/
def NothingAfterAGap (stream : Stream) (call : Bytes × SendResult) : Prop :=
  stream.accepted = stream.framed ∨ call.2.count = 0

instance (stream : Stream) (call : Bytes × SendResult) :
    Decidable (stream.NothingAfterAGap call) := inferInstanceAs (Decidable (_ ∨ _))

/-- A call keeps the prefix if it adds nothing to a stream with a gap. -/
theorem step_isPrefix {stream stream' : Stream} {call : Bytes × SendResult} {sent : List Bytes}
    (h : stream.accepted <+: stream.framed) (hgap : stream.NothingAfterAGap call)
    (hstep : stream.step call = .ok (stream', sent)) : stream'.accepted <+: stream'.framed := by
  cases hstep
  rcases hgap with hall | hnone
  · rw [hall]
    exact (List.prefix_append_right_inj _).2 (List.take_prefix _ _)
  · show stream.accepted ++ transmit call.1 call.2 <+: stream.framed ++ send call.1
    rw [transmit, hnone, List.take_zero, List.append_nil]
    exact h.trans (List.prefix_append _ _)

/-- With a byte owed, some next message must not go out at all. -/
theorem exists_not_isPrefix {stream : Stream} (h : stream.accepted <+: stream.framed)
    (howed : stream.accepted ≠ stream.framed) {count : Nat} (hcount : 0 < count) :
    ∃ message stream' sent, stream.step (message, .accepted count) = .ok (stream', sent) ∧
      ¬ stream'.accepted <+: stream'.framed := by
  obtain ⟨owed, howes⟩ := h
  cases owed with
  | nil => exact absurd ((List.append_nil _).symm.trans howes) howed
  | cons byte owed =>
    -- any message that begins with another byte will do
    refine ⟨[byte + 1], _, _, rfl, fun hinitial => ?_⟩
    obtain ⟨n, rfl⟩ : ∃ n, count = n + 1 := ⟨count - 1, by omega⟩
    rw [← howes] at hinitial
    simp only [transmit, send, SendResult.count, List.cons_append, List.take_succ_cons,
      List.append_assoc, List.prefix_append_right_inj, List.cons_prefix_cons] at hinitial
    have hne : byte + 1 ≠ byte := by simp
    exact hne hinitial.1

theorem run_isPrefix {calls : List (Bytes × SendResult)} {stream : Stream} {sent : List Bytes}
    (hgap : Along step (fun stream call _ => stream.NothingAfterAGap call) empty calls)
    (hrun : run step empty calls = .ok (stream, sent)) : stream.accepted <+: stream.framed :=
  run_invariant_along (P := fun stream => stream.accepted <+: stream.framed)
    (fun stream call _ _ _ _ h hgap (hstep : stream.step call = _) => step_isPrefix h hgap hstep)
    List.nil_prefix hgap hrun

/-- In every run in which nothing is accepted after a gap, the accepted bytes are at every
moment an initial part of the framed messages.  After such a run, a socket that accepts bytes
keeps this for every next message exactly if no byte is owed. -/
theorem accepted_isPrefix {calls : List (Bytes × SendResult)}
    (hgap : Along step (fun stream call _ => stream.NothingAfterAGap call) empty calls) :
    isPrefix.Accepts () (moves step empty calls) ∧
      ∀ stream sent, run step empty calls = .ok (stream, sent) → ∀ count, 0 < count →
        ((∀ message, isPrefix.Accepts ()
            (moves step empty (calls ++ [(message, .accepted count)]))) ↔
          stream.accepted = stream.framed) := by
  have hcalls : isPrefix.Accepts () (moves step empty calls) := by
    refine moves_accepts (R := fun stream _ rest => stream.accepted <+: stream.framed ∧
      Along step (fun stream call _ => stream.NothingAfterAGap call) stream rest)
      (fun stream _ call rest stream' sent hs hstep => ?_) ⟨List.nil_prefix, hgap⟩
    have hkept := step_isPrefix hs.1 hs.2.1 hstep
    exact ⟨hkept, hkept, hs.2.2 stream' sent hstep⟩
  refine ⟨hcalls, fun stream sent hrun count hcount => ⟨fun hall => ?_, fun hnone message => ?_⟩⟩
  · by_contra howed
    obtain ⟨message, stream', sent', hstep, hnot⟩ :=
      exists_not_isPrefix (run_isPrefix hgap hrun) howed hcount
    exact hnot (moves_accepts_last (hall message) hrun hstep)
  · rw [moves_append_of_ok hrun, Monitor.accepts_append]
    exact ⟨hcalls, step_isPrefix (run_isPrefix hgap hrun) (Or.inl hnone) rfl, trivial⟩

/-- `ALL_READY_GAME_STARTING` as it is encoded, and `ALL_REPLAY_READY_GAME_STARTING`. -/
def allReady : Bytes := ascii "\x7b\"messageType\":4\x7d"

def allReplayReady : Bytes := ascii "\x7b\"messageType\":11\x7d"

/-- One message goes out, of the next a part does, and then the socket is full. -/
def fullSocket : List (Bytes × SendResult) :=
  [(allReady, .accepted 18), (allReplayReady, .accepted 5), (allReady, .wouldBlock)]

theorem accepted_isPrefix_fullSocket :
    isPrefix.Accepts () (moves step empty fullSocket) ∧
      ¬ ∀ message, isPrefix.Accepts ()
        (moves step empty (fullSocket ++ [(message, .accepted 1)])) :=
  have h := @accepted_isPrefix fullSocket (by decide)
  ⟨h.1, fun hall => absurd ((h.2 _ _ rfl 1 Nat.one_pos).1 hall) (by decide)⟩

/-- Five bytes of a message are accepted, and then the next message whole. -/
theorem truncated_message_is_followed :
    ¬ ∀ calls : List (Bytes × SendResult), isPrefix.Accepts () (moves step empty calls) := by
  intro h
  have hlast : transmit allReady (.accepted 5) ++ send allReplayReady <+:
      send allReady ++ send allReplayReady :=
    (h [(allReady, .accepted 5), (allReplayReady, .accepted 19)]).2.1
  exact absurd hlast (by decide)

end Stream
end ClientSocket
end SamuraiKirby
