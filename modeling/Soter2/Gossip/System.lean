import Mathlib.Data.List.Basic
import Mathlib.Data.List.Nodup
import Mathlib.Order.Lattice.Nat
import Mathlib.Order.WithBot
import Mathlib.Tactic.Common
import Soter2.Library.MaxRegister
import Soter2.Lownet.Addr

/-! # The gossip store (`gossip/src/system.c`)

`gossip_new_entry` keeps one entry for each UID, the one with the greatest version offered,
and none for the node itself.  `versions` is the abstract store, one register for each UID,
and an entry that is handed in is an offer to it.

* `gossip_order_independent` — what the store holds after any entries in any order.
-/

namespace Soter2.Gossip

open Soter2.Lownet
open Soter2.E2ee (Bytes keyBytes)

structure GossipMetadata where
  pubkey : Bytes keyBytes
  availableStateServer : Naddr
deriving DecidableEq

structure GossipEntry where
  uid : UInt32
  addr : Naddr
  version : UInt32
  timestamp : UInt64
  md : GossipMetadata
deriving DecidableEq

structure GossipSystem where
  gossips : List GossipEntry
  lastGossiped : UInt32
  selfUid : UInt32
deriving DecidableEq

def gossipSystemInit (selfUid : UInt32) : GossipSystem := ⟨[], 0, selfUid⟩

/-- The search of `gossip_new_entry` for the entry of a UID. -/
def stored (g : GossipSystem) (uid : UInt32) : Option GossipEntry := g.gossips.find? (·.uid = uid)

def gossipNewEntry (g : GossipSystem) (entry : GossipEntry) : GossipSystem :=
  if entry.uid = g.selfUid then g
  else
    match stored g entry.uid with
    | some existing =>
      if entry.version ≤ existing.version then g
      else { g with gossips := g.gossips.eraseP (·.uid = entry.uid) ++ [entry] }
    | none => { g with gossips := g.gossips ++ [entry] }

def gossipNewEntries (g : GossipSystem) (entries : List GossipEntry) : GossipSystem :=
  entries.foldl gossipNewEntry g

/-! ## What one entry does -/

structure GossipSystem.Inv (g : GossipSystem) : Prop where
  foreign : ∀ e ∈ g.gossips, e.uid ≠ g.selfUid
  unique : (g.gossips.map (·.uid)).Nodup

variable {g : GossipSystem} {entry : GossipEntry} {uid : UInt32}

theorem mem_of_stored (h : stored g uid = some entry) : entry ∈ g.gossips ∧ entry.uid = uid :=
  ⟨List.mem_of_find?_eq_some h, by simpa using List.find?_some h⟩

/-- Where no UID stands twice, the removal of the entry found leaves the other UIDs. -/
theorem eraseP_eq_filter {entries : List GossipEntry} (unique : (entries.map (·.uid)).Nodup)
    (uid : UInt32) : entries.eraseP (·.uid = uid) = entries.filter (·.uid ≠ uid) := by
  induction entries with
  | nil => rfl
  | cons e entries ih =>
    rw [List.map_cons, List.nodup_cons] at unique
    by_cases here : e.uid = uid
    · have others : ∀ o ∈ entries, o.uid ≠ uid := by
        rintro o member rfl
        exact unique.1 (here ▸ List.mem_map_of_mem member)
      rw [List.eraseP_cons_of_pos (by simpa using here),
        List.filter_cons_of_neg (by simpa using here)]
      exact (List.filter_eq_self.mpr (by simpa using others)).symm
    · rw [List.eraseP_cons_of_neg (by simpa using here),
        List.filter_cons_of_pos (by simpa using here), ih unique.2]

/-- An entry is dropped as the node's own or as not newer, or it takes the place of the
    entry with its UID. -/
theorem gossipNewEntry_cases (inv : g.Inv) (entry : GossipEntry) :
    (gossipNewEntry g entry = g ∧
      (entry.uid = g.selfUid ∨ ∃ existing, stored g entry.uid = some existing ∧
        entry.version ≤ existing.version)) ∨
    (gossipNewEntry g entry = { g with gossips := g.gossips.filter (·.uid ≠ entry.uid) ++
      [entry] } ∧
      entry.uid ≠ g.selfUid ∧ ∀ existing, stored g entry.uid = some existing →
        ¬ entry.version ≤ existing.version) := by
  by_cases own : entry.uid = g.selfUid
  · exact .inl ⟨if_pos own, .inl own⟩
  rw [gossipNewEntry, if_neg own]
  cases found : stored g entry.uid with
  | none =>
    refine .inr ⟨?_, own, by simp⟩
    -- nothing is stored for the UID, so the filter takes nothing away
    have others : ∀ o ∈ g.gossips, o.uid ≠ entry.uid := by
      simpa [stored, List.find?_eq_none] using found
    rw [List.filter_eq_self.mpr (by simpa using others)]
  | some existing =>
    by_cases older : entry.version ≤ existing.version
    · exact .inl ⟨if_pos older, .inr ⟨existing, rfl, older⟩⟩
    · refine .inr ⟨?_, own, ?_⟩
      · simp only [older, if_false, eraseP_eq_filter inv.unique]
      · rintro _ ⟨⟩
        exact older

theorem gossipSystemInit_inv (selfUid : UInt32) : (gossipSystemInit selfUid).Inv :=
  ⟨by simp [gossipSystemInit], List.nodup_nil⟩

theorem gossipNewEntry_selfUid (g : GossipSystem) (entry : GossipEntry) :
    (gossipNewEntry g entry).selfUid = g.selfUid := by
  rw [gossipNewEntry]
  split
  · rfl
  · split
    · split <;> rfl
    · rfl

theorem gossipNewEntry_inv (inv : g.Inv) (entry : GossipEntry) : (gossipNewEntry g entry).Inv := by
  obtain ⟨same, -⟩ | ⟨taken, own, -⟩ := gossipNewEntry_cases inv entry
  · rw [same]
    exact inv
  · rw [taken]
    constructor
    · intro e member
      obtain old | rfl := by simpa using member
      · exact inv.foreign e old.1
      · exact own
    · rw [List.map_append, List.nodup_append]
      refine ⟨inv.unique.sublist (List.filter_sublist.map _), List.nodup_singleton _, ?_⟩
      intro a ha b hb
      obtain ⟨e, kept, rfl⟩ := List.mem_map.mp ha
      obtain rfl : b = entry.uid := by simpa using hb
      simpa using (List.mem_filter.mp kept).2

/-! ## The versions that are stored -/

def storedVersion (g : GossipSystem) (uid : UInt32) : Option UInt32 :=
  (stored g uid).map (·.version)

/-- The abstract store: a register for each UID. -/
def versions (g : GossipSystem) (uid : UInt32) : WithBot ℕ :=
  match storedVersion g uid with
  | some version => WithBot.some version.toNat
  | none => ⊥

def GossipEntry.offer (e : GossipEntry) : UInt32 × WithBot ℕ :=
  (e.uid, WithBot.some e.version.toNat)

/-- The offers of the entries that are not the node's own. -/
def foreignOffers (selfUid : UInt32) (entries : List GossipEntry) : List (UInt32 × WithBot ℕ) :=
  (entries.filter (·.uid ≠ selfUid)).map (·.offer)

theorem versions_eq_coe {version : UInt32} :
    versions g uid = WithBot.some version.toNat ↔ storedVersion g uid = some version := by
  rw [versions]
  cases storedVersion g uid with
  | none => simp
  | some v => simp [UInt32.toNat_inj]

theorem versions_eq_bot : versions g uid = ⊥ ↔ storedVersion g uid = none := by
  rw [versions]
  cases storedVersion g uid <;> simp

theorem storedVersion_of_versions {g' : GossipSystem} (same : versions g' uid = versions g uid) :
    storedVersion g' uid = storedVersion g uid := by
  cases h : storedVersion g uid with
  | none => rw [← versions_eq_bot, same, versions_eq_bot, h]
  | some version => rw [← versions_eq_coe, same, versions_eq_coe, h]

theorem offer_covered :
    (∃ existing, stored g entry.uid = some existing ∧ entry.version ≤ existing.version) ↔
      entry.offer.2 ≤ versions g entry.offer.1 := by
  simp only [GossipEntry.offer, versions, storedVersion]
  cases stored g entry.uid with
  | none => simp
  | some existing => simp [UInt32.le_iff_toNat_le]

theorem stored_replaced (g : GossipSystem) (entry : GossipEntry) (uid : UInt32) :
    (g.gossips.filter (·.uid ≠ entry.uid) ++ [entry]).find? (·.uid = uid)
      = if uid = entry.uid then some entry else stored g uid := by
  rw [List.find?_append]
  split
  next here =>
    -- of this UID only the new entry is left
    have none_left : (g.gossips.filter (·.uid ≠ entry.uid)).find? (·.uid = uid) = none := by
      rw [List.find?_eq_none, here]
      intro e member
      simpa using (List.mem_filter.mp member).2
    rw [none_left]
    simp [here]
  next other =>
    have skipped : ∀ e : GossipEntry,
        decide (decide (e.uid ≠ entry.uid) = true ∧ decide (e.uid = uid) = true)
          = decide (e.uid = uid) := by
      intro e
      by_cases there : e.uid = uid
      · simp [there, other]
      · simp [there]
    rw [List.find?_filter]
    simp only [skipped]
    simp [stored, Ne.symm other]

/-- The store refines the registers: an entry is an offer, and one of the node's own is none. -/
theorem versions_gossipNewEntry (inv : g.Inv) (entry : GossipEntry) :
    versions (gossipNewEntry g entry)
      = if entry.uid = g.selfUid then versions g
        else MaxRegister.offer (versions g) entry.offer := by
  obtain ⟨same, own | covered⟩ | ⟨taken, own, newer⟩ := gossipNewEntry_cases inv entry
  · rw [same, if_pos own]
  · rw [same]
    split
    · rfl
    next => rw [MaxRegister.offer_absorbed (offer_covered.mp covered)]
  · -- an entry that is stored is newer than the one before it
    have exceeds : versions g entry.offer.1 ≤ entry.offer.2 := by
      refine (le_total _ _).resolve_right fun covered => ?_
      obtain ⟨existing, found, older⟩ := offer_covered.mpr covered
      exact newer existing found older
    rw [if_neg own, MaxRegister.offer, sup_eq_right.mpr exceeds]
    funext uid
    simp only [versions, storedVersion, stored, taken, stored_replaced]
    by_cases here : uid = entry.uid
    · subst here
      simp [GossipEntry.offer]
    · simp only [here, if_false, GossipEntry.offer, Function.update_of_ne here, versions,
        storedVersion, stored]

/-! ## Runs of entries -/

theorem gossipNewEntries_inv (inv : g.Inv) (entries : List GossipEntry) :
    (gossipNewEntries g entries).Inv := by
  induction entries generalizing g with
  | nil => exact inv
  | cons entry entries ih => exact ih (gossipNewEntry_inv inv entry)

theorem gossipNewEntries_selfUid (g : GossipSystem) (entries : List GossipEntry) :
    (gossipNewEntries g entries).selfUid = g.selfUid := by
  induction entries generalizing g with
  | nil => rfl
  | cons entry entries ih =>
    exact (ih (gossipNewEntry g entry)).trans (gossipNewEntry_selfUid g entry)

theorem versions_gossipNewEntries (inv : g.Inv) (entries : List GossipEntry) :
    versions (gossipNewEntries g entries)
      = MaxRegister.offers (versions g) (foreignOffers g.selfUid entries) := by
  induction entries generalizing g with
  | nil => rfl
  | cons entry entries ih =>
    have step := versions_gossipNewEntry inv entry
    have rest := ih (gossipNewEntry_inv inv entry)
    rw [gossipNewEntry_selfUid] at rest
    refine rest.trans ?_
    by_cases own : entry.uid = g.selfUid
    · rw [step, if_pos own, foreignOffers, foreignOffers,
        List.filter_cons_of_neg (by simpa using own)]
    · rw [step, if_neg own, foreignOffers, foreignOffers,
        List.filter_cons_of_pos (by simpa using own)]
      rfl

/-- Entries that are the node's own or not newer than what is stored change nothing. -/
theorem gossipNewEntries_covered {entries : List GossipEntry}
    (covered : ∀ e ∈ entries, e.uid = g.selfUid ∨ e.offer.2 ≤ versions g e.offer.1) :
    gossipNewEntries g entries = g := by
  induction entries with
  | nil => rfl
  | cons entry entries ih =>
    obtain ⟨here, rest⟩ := List.forall_mem_cons.mp covered
    have same : gossipNewEntry g entry = g := by
      by_cases own : entry.uid = g.selfUid
      · exact if_pos own
      · obtain ⟨existing, found, older⟩ := offer_covered.mpr (here.resolve_left own)
        rw [gossipNewEntry, if_neg own, found]
        exact if_pos older
    rw [gossipNewEntries, List.foldl_cons, same]
    exact ih rest

theorem mem_foreignOffers {selfUid : UInt32} {entries : List GossipEntry} {version : UInt32} :
    (uid, WithBot.some version.toNat) ∈ foreignOffers selfUid entries ↔
      ∃ e ∈ entries, e.uid ≠ selfUid ∧ e.uid = uid ∧ e.version = version := by
  simp only [foreignOffers, List.mem_map, List.mem_filter, decide_eq_true_eq, GossipEntry.offer,
    Prod.mk.injEq, WithBot.coe_inj, UInt32.toNat_inj, and_assoc]

/-- An entry of no address. -/
def sampleEntry (uid : UInt32) (timestamp : UInt64) : GossipEntry :=
  ⟨uid, Naddr.zero, 0, timestamp, ⟨Vector.replicate keyBytes 0, Naddr.zero⟩⟩

/-! ## Order independence -/

variable {selfUid : UInt32} {entries entries' : List GossipEntry}

/-- The registers of a store that started empty. -/
theorem versions_filled (selfUid : UInt32) (entries : List GossipEntry) :
    versions (gossipNewEntries (gossipSystemInit selfUid) entries)
      = MaxRegister.offers (fun _ => ⊥) (foreignOffers selfUid entries) :=
  versions_gossipNewEntries (gossipSystemInit_inv selfUid) entries

theorem offer_le_versions (member : entry ∈ entries) (other : entry.uid ≠ selfUid) :
    entry.offer.2 ≤ versions (gossipNewEntries (gossipSystemInit selfUid) entries)
      entry.offer.1 := by
  rw [versions_filled]
  exact MaxRegister.le_offers
    _ (List.mem_map_of_mem (List.mem_filter.mpr ⟨member, by simpa using other⟩))

/-- The version that is stored for a UID is the greatest that was handed in. -/
theorem storedVersion_iff_greatest {version : UInt32} :
    storedVersion (gossipNewEntries (gossipSystemInit selfUid) entries) uid = some version ↔
      uid ≠ selfUid ∧ (∃ e ∈ entries, e.uid = uid ∧ e.version = version) ∧
        ∀ e ∈ entries, e.uid = uid → e.version ≤ version := by
  rw [← versions_eq_coe]
  constructor
  · intro holds
    obtain bot | offered := MaxRegister.offers_attained (fun _ => ⊥) (foreignOffers selfUid entries)
      uid
    · rw [versions_filled, bot] at holds
      exact absurd holds WithBot.bot_ne_coe
    · rw [← versions_filled, holds, mem_foreignOffers] at offered
      obtain ⟨e, member, other, rfl, rfl⟩ := offered
      -- what is stored was handed in, and is an upper bound of what was
      refine ⟨other, ⟨e, member, rfl, rfl⟩, fun o also same => ?_⟩
      have below := offer_le_versions also (same ▸ other)
      simpa [GossipEntry.offer, same, holds, UInt32.le_iff_toNat_le] using below
  · rintro ⟨other, ⟨e, member, rfl, rfl⟩, greatest⟩
    refine le_antisymm ?_ (offer_le_versions member other)
    obtain bot | offered := MaxRegister.offers_attained (fun _ => ⊥) (foreignOffers selfUid entries)
      e.uid
    · rw [versions_filled, bot]
      exact bot_le
    · obtain ⟨o, also, eq⟩ := List.mem_map.mp offered
      obtain ⟨same, value⟩ := Prod.mk.inj eq
      rw [versions_filled, ← value]
      simpa [UInt32.le_iff_toNat_le] using greatest o (List.mem_filter.mp also).1 same

theorem storedVersion_perm (perm : entries'.Perm entries) :
    storedVersion (gossipNewEntries (gossipSystemInit selfUid) entries')
      = storedVersion (gossipNewEntries (gossipSystemInit selfUid) entries) := by
  funext uid
  refine storedVersion_of_versions ?_
  rw [versions_filled, versions_filled]
  exact congrFun (MaxRegister.offers_perm _ ((perm.filter _).map _)) uid

theorem gossipNewEntries_again (subset : entries' ⊆ entries) :
    gossipNewEntries (gossipNewEntries (gossipSystemInit selfUid) entries) entries'
      = gossipNewEntries (gossipSystemInit selfUid) entries := by
  refine gossipNewEntries_covered fun e member => ?_
  by_cases own : e.uid = selfUid
  · exact .inl (own.trans (gossipNewEntries_selfUid (gossipSystemInit selfUid) entries).symm)
  · exact .inr (offer_le_versions (subset member) own)

/-- Whatever entries are handed to an empty store, it holds no entry of the node itself and
    none twice, and of every other UID the greatest version handed in; the order does not
    matter, and handing any of them in again changes nothing. -/
theorem gossip_order_independent (selfUid : UInt32) (entries : List GossipEntry) :
    let g := gossipNewEntries (gossipSystemInit selfUid) entries
    (∀ e ∈ g.gossips, e.uid ≠ selfUid) ∧ (g.gossips.map (·.uid)).Nodup ∧
      (∀ uid version, storedVersion g uid = some version ↔
        uid ≠ selfUid ∧ (∃ e ∈ entries, e.uid = uid ∧ e.version = version) ∧
          ∀ e ∈ entries, e.uid = uid → e.version ≤ version) ∧
      (∀ entries', entries'.Perm entries →
        storedVersion (gossipNewEntries (gossipSystemInit selfUid) entries') = storedVersion g) ∧
      ∀ again, again ⊆ entries → gossipNewEntries g again = g := by
  intro g
  have inv : g.Inv := gossipNewEntries_inv (gossipSystemInit_inv selfUid) entries
  have self : g.selfUid = selfUid := gossipNewEntries_selfUid _ entries
  refine ⟨self ▸ inv.foreign, inv.unique, ?_, ?_, ?_⟩
  · exact fun uid version => storedVersion_iff_greatest
  · exact fun entries' => storedVersion_perm
  · exact fun again => gossipNewEntries_again

end Soter2.Gossip
