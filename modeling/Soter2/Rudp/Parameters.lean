import Mathlib.Data.List.Basic
import Mathlib.Tactic.Common
import Soter2.Rudp.Sender

/-! # What changes the timing parameters of a connection

A RACK that goes out sets `ack_threshold` anew, and one that comes in moves `avg_rtt_ms`;
everything else leaves the parameters, the peer and the timeout alone.
-/

namespace Soter2.Rudp

open Protocol

structure Retimed (conn conn' : RudpConnection) : Prop where
  peer : conn'.cUid = conn.cUid
  timeout : conn'.ackTimeoutMs = conn.ackTimeoutMs
  threshold : conn'.ackThreshold = conn.ackThreshold ∨
    ∃ rttMs count, conn'.ackThreshold = nextAckThreshold conn.ackThreshold rttMs count
  rtt : conn'.avgRttMs = conn.avgRttMs ∨ ∃ sample, conn'.avgRttMs = nextAvgRtt conn.avgRttMs sample

namespace Retimed

theorem refl (conn : RudpConnection) : Retimed conn conn := ⟨rfl, rfl, .inl rfl, .inl rfl⟩

theorem send (conn : RudpConnection) (pkt : Protopack) (nowMs : Int) :
    Retimed conn (rudpConnSend conn pkt nowMs).2.1 := by
  obtain ⟨ret, -, eq⟩ | ⟨-, -, pending, -, -, eq⟩ := rudpConnSend_cases conn pkt nowMs
  · rw [eq]
    exact refl conn
  · rw [eq]
    exact ⟨rfl, rfl, .inl rfl, .inl rfl⟩

theorem recv (conn : RudpConnection) : Retimed conn (rudpConnRecv conn).2.2 := by
  simp only [rudpConnRecv]
  split
  · exact refl conn
  · split
    · exact refl conn
    · exact ⟨rfl, rfl, .inl rfl, .inl rfl⟩

theorem timeouts (conn : RudpConnection) (nowMs : Int) :
    Retimed conn (rudpConnTimeouts conn nowMs).2.1 := by
  have frame := (timeoutsLoop_inv conn nowMs).frame
  simp only [rudpConnTimeouts]
  rw [frame]
  exact ⟨rfl, rfl, .inl rfl, .inl rfl⟩

theorem close (conn : RudpConnection) : Retimed conn (rudpConnClose conn).1 :=
  ⟨rfl, rfl, .inl rfl, .inl rfl⟩

theorem data (conn : RudpConnection) (pkt : Protopack) (nowMs : Int) :
    Retimed conn (netHandlerData conn pkt nowMs).1 := by
  obtain ⟨_, _, _, _, accepted⟩ := acceptData_frame conn pkt
  simp only [netHandlerData, acknowledge, protoMsgQuick_eq, accepted]
  split
  · -- a RACK goes out
    exact ⟨rfl, rfl, .inr ⟨_, _, rfl⟩, .inl rfl⟩
  · exact ⟨rfl, rfl, .inl rfl, .inl rfl⟩

theorem handled (conn : RudpConnection) (pkt : Protopack) (nowMs : Int) :
    Retimed conn (netHandlerConn conn pkt nowMs).1 := by
  simp only [netHandlerConn]
  split
  · exact data conn pkt nowMs
  · split
    · exact ⟨rfl, rfl, .inl rfl, .inr ⟨_, rfl⟩⟩
    · exact refl conn

end Retimed

end Soter2.Rudp
