import Mathlib.Data.List.Basic
import Mathlib.Logic.Function.Basic
import Mathlib.Tactic.Common
import Soter2.E2ee.Connection
import Soter2.Gossip.System
import Soter2.Library.Layout
import Soter2.Library.Transition
import Soter2.Rudp.Dispatcher
import Soter2.Turn.Relay

/-! # The node's own UID (`interface/src/system.c`, `crypto/src/signing.c`)

`s2_systems_create` derives the UID of the node from its signature and gives a copy to each of
the subsystems that need it.  The signature can be replaced later by one from a file.

* `agree_iff_keeps_uid` — in which runs all copies stay those of the signature.
-/

namespace Soter2.Interface

open E2ee Gossip Rudp Turn

/-! ## Files of signatures -/

/-- How a struct `sign` lies in memory, and in a file. -/
def signLayout : Layout Sign :=
  ((Layout.bytes keyBytes).pair (Layout.bytes signBytes)).congr (fun p => ⟨p.1, p.2⟩)
    (fun sgn => (sgn.idPub, sgn.idSec))
    (fun _ => rfl) (fun _ => rfl)

inductive File where
  | absent
  /-- `stat` finds it and `fopen` fails. -/
  | unreadable
  | content (raw : List UInt8)
deriving DecidableEq, Repr

/-- What comes of writing a signature: `fopen` fails, only some bytes are written, or all. -/
inductive Disk where
  | closed
  | full (bytes : Nat)
  | free
deriving DecidableEq, Repr

/-- `sign_load`.  The bytes of a file that is too short are read, too. -/
def signLoad (kp : Sign) : File → Int × Sign
  | .absent | .unreadable => (-1, kp)
  | .content raw =>
    if raw.length < signLayout.size then
      (-1, signLayout.ofImage (raw ++ (signLayout.image kp).drop raw.length))
    else (0, signLayout.ofImage raw)

/-- `sign_store`, with the file it leaves. -/
def signStore (kp : Sign) (file : File) : Disk → Int × File
  | .closed => (-1, file)
  | .full bytes => (-1, .content ((signLayout.image kp).take bytes))
  | .free => (0, .content (signLayout.image kp))

/-! ## The systems -/

structure S2Crypto where
  selfSign : Sign
  uid : UInt32

/-- The parts of `s2_systems` that hold the identity of the node. -/
structure S2Systems where
  cryptoMod : S2Crypto
  gossipSys : GossipSystem
  rudpDisp : RudpDispatcher
  turnCli : TurnClient

variable {π : Type*} [DecidableEq π] (sodium : Sodium)

/-- `s2_systems_create`, where `selfSign` is what `sign_gen` and `truid` what `rand` returns. -/
def s2SystemsCreate (selfSign : Sign) (truid : UInt32) : S2Systems :=
  let uid := cryptoPubkeyToUid sodium selfSign.idPub
  { cryptoMod := ⟨selfSign, uid⟩
    gossipSys := gossipSystemInit uid
    rudpDisp := rudpDispatcherNew uid
    turnCli := turnClientInit uid truid }

def s2SysSaveSign (sys : S2Systems) (file : File) (disk : Disk) : Int × File :=
  signStore sys.cryptoMod.selfSign file disk

def s2SysLoadSign (sys : S2Systems) (file : File) : Int × S2Systems :=
  let (ret, selfSign) := signLoad sys.cryptoMod.selfSign file
  if ret < 0 then (-1, { sys with cryptoMod.selfSign := selfSign })
  else
    let uid := cryptoPubkeyToUid sodium selfSign.idPub
    -- the copy of the TURN client is not renewed
    (0, { sys with
      cryptoMod := ⟨selfSign, uid⟩
      gossipSys.selfUid := uid
      rudpDisp.selfUid := uid })

/-- `s2_sys_upd_sign`: load if the file exists, save otherwise. -/
def s2SysUpdSign (sys : S2Systems) (file : File) (disk : Disk) : Int × S2Systems × File :=
  if file ≠ .absent then
    let (ret, sys) := s2SysLoadSign sodium sys file
    (ret, sys, file)
  else
    let (ret, file) := s2SysSaveSign sys file disk
    (ret, sys, file)

/-! ## Runs -/

/-- The file is not there or cannot be opened, or is a whole signature. -/
def File.Valid : File → Prop
  | .absent | .unreadable => True
  | .content raw => raw.length = signLayout.size

instance : DecidablePred File.Valid
  | .absent | .unreadable => .isTrue trivial
  | .content raw => inferInstanceAs (Decidable (raw.length = signLayout.size))

structure Node (π : Type*) where
  sys : S2Systems
  files : π → {file : File // file.Valid}

inductive SignAction (π : Type*) where
  | load (path : π)
  | save (path : π) (disk : Disk)
  | upd (path : π) (disk : Disk)
  /-- The file comes to be another one. -/
  | edit (path : π) (file : File)

/-- A file becomes another one only if that is valid. -/
def Node.put (n : Node π) (sys : S2Systems) (path : π) (file : File) : Option (Node π) :=
  if valid : file.Valid then some ⟨sys, Function.update n.files path ⟨file, valid⟩⟩ else none

def signStep (n : Node π) : SignAction π → Option (Node π)
  | .load path => some { n with sys := (s2SysLoadSign sodium n.sys (n.files path)).2 }
  | .save path disk => n.put n.sys path (s2SysSaveSign n.sys (n.files path) disk).2
  | .upd path disk =>
    let (_, sys, file) := s2SysUpdSign sodium n.sys (n.files path) disk
    n.put sys path file
  | .edit path file => n.put n.sys path file

/-- Every copy of the UID is the one of the signature, and a load that fails changes nothing. -/
structure Agrees (n : Node π) : Prop where
  crypto : n.sys.cryptoMod.uid = cryptoPubkeyToUid sodium n.sys.cryptoMod.selfSign.idPub
  rudp : n.sys.rudpDisp.selfUid = cryptoPubkeyToUid sodium n.sys.cryptoMod.selfSign.idPub
  gossip : n.sys.gossipSys.selfUid = cryptoPubkeyToUid sodium n.sys.cryptoMod.selfSign.idPub
  turn : n.sys.turnCli.turnSUid = cryptoPubkeyToUid sodium n.sys.cryptoMod.selfSign.idPub
  failed : ∀ path, (s2SysLoadSign sodium n.sys (n.files path)).1 < 0 →
    (s2SysLoadSign sodium n.sys (n.files path)).2 = n.sys

/-- The signature in the file, if there is one, has the UID. -/
def HasUid (uid : UInt32) : File → Prop
  | .absent | .unreadable => True
  | .content raw => cryptoPubkeyToUid sodium (signLayout.ofImage raw).idPub = uid

/-- A signature that is loaded has the UID that the node has. -/
def KeepsUid (n : Node π) : SignAction π → Prop
  | .load path | .upd path _ => HasUid sodium n.sys.cryptoMod.uid (n.files path)
  | .save .. | .edit .. => True

/-! ## Loads -/

variable {sodium} {n n' : Node π} {a : SignAction π} {sys : S2Systems} {file : File} {path : π}

/-- A load from a valid file fails and changes nothing, or takes the signature of the file. -/
theorem s2SysLoadSign_cases (sodium : Sodium) (sys : S2Systems) (valid : file.Valid) :
    (s2SysLoadSign sodium sys file = (-1, sys) ∧ ∀ uid, HasUid sodium uid file) ∨
    ∃ raw, file = .content raw ∧ (s2SysLoadSign sodium sys file).1 = 0 ∧
      (s2SysLoadSign sodium sys file).2.cryptoMod.selfSign = signLayout.ofImage raw := by
  cases file with
  | absent => exact .inl ⟨rfl, fun _ => trivial⟩
  | unreadable => exact .inl ⟨rfl, fun _ => trivial⟩
  | content raw =>
    have whole : ¬ raw.length < signLayout.size := valid.not_lt
    exact .inr ⟨raw, rfl, by simp [s2SysLoadSign, signLoad, whole]⟩

theorem failed_load_unchanged (valid : file.Valid) (fails : (s2SysLoadSign sodium sys file).1 < 0) :
    (s2SysLoadSign sodium sys file).2 = sys := by
  obtain ⟨same, -⟩ | ⟨raw, -, succeeds, -⟩ := s2SysLoadSign_cases sodium sys valid
  · rw [same]
  · omega

theorem s2SysLoadSign_renews (succeeds : (s2SysLoadSign sodium sys file).1 = 0) :
    let sys' := (s2SysLoadSign sodium sys file).2
    let uid := cryptoPubkeyToUid sodium sys'.cryptoMod.selfSign.idPub
    sys'.cryptoMod.uid = uid ∧ sys'.rudpDisp.selfUid = uid ∧ sys'.gossipSys.selfUid = uid ∧
      sys'.turnCli = sys.turnCli := by
  simp only [s2SysLoadSign] at succeeds ⊢
  split at succeeds
  · cases succeeds
  next done => simp [done]

/-! ## What a step does -/

theorem Node.put_sys (h : n.put sys path file = some n') : n'.sys = sys := by
  simp only [Node.put, Option.dite_none_right_eq_some, Option.some.injEq] at h
  obtain ⟨-, rfl⟩ := h
  rfl

theorem signStep_cases (h : signStep sodium n a = some n') :
    (n'.sys = n.sys ∧ KeepsUid sodium n a) ∨
    ∃ path, n'.sys = (s2SysLoadSign sodium n.sys (n.files path)).2 ∧
      (KeepsUid sodium n a ↔ HasUid sodium n.sys.cryptoMod.uid (n.files path)) := by
  cases a with
  | load path => cases h; exact .inr ⟨path, rfl, Iff.rfl⟩
  | save path disk => exact .inl ⟨Node.put_sys h, trivial⟩
  | edit path file => exact .inl ⟨Node.put_sys h, trivial⟩
  | upd path disk =>
    by_cases absent : (n.files path).1 = .absent
    · simp only [signStep, s2SysUpdSign, absent, ne_eq, not_true_eq_false, if_false] at h
      refine .inl ⟨Node.put_sys h, ?_⟩
      simp only [KeepsUid, absent]
      trivial
    · simp only [signStep, s2SysUpdSign, absent, ne_eq, not_false_eq_true, if_true] at h
      exact .inr ⟨path, Node.put_sys h, Iff.rfl⟩

omit [DecidableEq π] in
/-- A failed load is harmless in every state, so everything agrees if the copies do. -/
theorem agrees_iff :
    Agrees sodium n ↔
      let uid := cryptoPubkeyToUid sodium n.sys.cryptoMod.selfSign.idPub
      n.sys.cryptoMod.uid = uid ∧ n.sys.rudpDisp.selfUid = uid ∧ n.sys.gossipSys.selfUid = uid ∧
        n.sys.turnCli.turnSUid = uid := by
  constructor
  · intro agrees
    exact ⟨agrees.crypto, agrees.rudp, agrees.gossip, agrees.turn⟩
  · rintro ⟨crypto, rudp, gossip, turn⟩
    exact ⟨crypto, rudp, gossip, turn, fun path => failed_load_unchanged (n.files path).2⟩

theorem signStep_agrees_iff (agrees : Agrees sodium n) (h : signStep sodium n a = some n') :
    Agrees sodium n' ↔ KeepsUid sodium n a := by
  rw [agrees_iff]
  obtain ⟨same, keeps⟩ | ⟨path, loaded, keeps⟩ := signStep_cases h
  · rw [same]
    exact iff_of_true (agrees_iff.mp agrees) keeps
  · rw [loaded, keeps]
    obtain ⟨same, unread⟩ | ⟨raw, content, succeeds, sign⟩ :=
      s2SysLoadSign_cases sodium n.sys (n.files path).2
    · rw [same]
      exact iff_of_true (agrees_iff.mp agrees) (unread _)
    · obtain ⟨crypto, rudp, gossip, turn⟩ := s2SysLoadSign_renews succeeds
      have old : n.sys.turnCli.turnSUid = n.sys.cryptoMod.uid :=
        agrees.turn.trans agrees.crypto.symm
      simp only [crypto, rudp, gossip, turn, old, true_and]
      rw [sign, content]
      exact eq_comm

/-- A step that gives the node another UID is possible. -/
theorem signStep_of_not_keepsUid (changes : ¬ KeepsUid sodium n a) :
    ∃ n', signStep sodium n a = some n' := by
  cases a with
  | load path => exact ⟨_, rfl⟩
  | save | edit => exact absurd trivial changes
  | upd path disk =>
    have there : (n.files path).1 ≠ .absent := by
      intro absent
      simp only [KeepsUid, absent] at changes
      exact changes trivial
    simp only [signStep, s2SysUpdSign, there, ne_eq, not_false_eq_true, if_true]
    exact ⟨_, dif_pos (n.files path).2⟩

/-- In all states of a run the copies of the UID are those of the signature, exactly if each
    signature that is loaded has the UID that the node already has. -/
theorem agree_iff_keeps_uid (sodium : Sodium) (selfSign : Sign) (truid : UInt32)
    (files : π → {file : File // file.Valid}) (as : List (SignAction π)) :
    let start : Node π := ⟨s2SystemsCreate sodium selfSign truid, files⟩
    (∀ bs, bs <+: as → ∀ n, Transition.run (signStep sodium) start bs = some n → Agrees sodium n) ↔
      Transition.Meets (signStep sodium) (KeepsUid sodium) start as := by
  refine Transition.always_iff_meets_where (I := fun _ => True) (fun _ _ _ _ _ => trivial)
    (fun _ _ => signStep_of_not_keepsUid) (fun _ _ _ _ => signStep_agrees_iff) trivial ?_
  exact agrees_iff.mpr ⟨rfl, rfl, rfl, rfl⟩

/-- A node that loads the signature of another node keeps its own UID in the TURN client. -/
theorem turn_keeps_old_uid :
    ∃ n, Transition.run (signStep toySodium)
        ⟨s2SystemsCreate toySodium (toySign 1) 0,
          fun _ : Unit => ⟨.content (signLayout.image (toySign 2)), by decide⟩⟩ [.load ()] =
        some n ∧
      n.sys.cryptoMod.selfSign = toySign 2 ∧ n.sys.cryptoMod.uid = 0x02020202 ∧
        n.sys.turnCli.turnSUid = 0x01010101 ∧
      ¬ Agrees toySodium n := by
  refine ⟨_, rfl, by decide, by decide, by decide, fun agrees => ?_⟩
  exact absurd agrees.turn (by decide)

end Soter2.Interface
