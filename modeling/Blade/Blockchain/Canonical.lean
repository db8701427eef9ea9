import Blade.Blockchain.Chain

/-!
What `writeHeaderImpl` does to the canonical index. On a store whose headers are linked to a
parent one height below, a write leaves the canonical hashes below both the old head and the
new header as they were, and the new headers it reports are at those heights or above: the
walk that collects the new side stops at the old head's height, and the walk that finds the
common ancestor collects nothing of it. A reorganization to a fork that branched off deeper
than that keeps the old chain's hashes at the heights in between.
-/

open Blade.Lib Blade.Lib.Rlp Blade.Types Blade.Storage

namespace Blade.Blockchain

variable (rlp : RlpOps) (headerHash : Types.Header → Hash) (bc : Blockchain)

/-- The parent of `hd` is stored one height below it, unless `hd` is at height zero. -/
def LinkedAt (hd : Types.Header) : Prop :=
  0 < hd.number.toNat → ∃ p, bc.readHeader rlp hd.parentHash = some p ∧ p.number.toNat + 1 = hd.number.toNat

/-- Every stored header is linked to its parent. -/
def Linked : Prop := ∀ x hd, bc.readHeader rlp x = some hd → bc.LinkedAt rlp hd

variable {rlp} {bc}

/-! ## The walks of `handleReorg` -/

theorem walkOld_number {newHeader : Types.Header} (hL : bc.Linked rlp) :
    ∀ {fuel : ℕ} {old old' : Types.Header} {acc acc' : List Types.Header}, bc.LinkedAt rlp old →
      bc.walkOld rlp newHeader fuel old acc = .ok (old', acc') →
      old'.number.toNat = min old.number.toNat newHeader.number.toNat ∧ bc.LinkedAt rlp old'
  | 0, _, _, _, _, _, h => by cases h
  | fuel + 1, old, old', acc, acc', hold, h => by
    unfold walkOld at h
    by_cases hlt : newHeader.number < old.number
    · rw [if_pos hlt] at h
      have hlt' := UInt64.lt_iff_toNat_lt.mp hlt
      obtain ⟨p, hp, hpn⟩ := hold (by omega)
      rw [hp] at h
      obtain ⟨hn, hlinked⟩ := walkOld_number hL (hL _ _ hp) h
      exact ⟨by omega, hlinked⟩
    · rw [if_neg hlt] at h
      cases h
      have hle := UInt64.le_iff_toNat_le.mp (UInt64.not_lt.mp hlt)
      exact ⟨by omega, hold⟩

theorem walkNew_mem {oldHeader : Types.Header} (hL : bc.Linked rlp) :
    ∀ {fuel : ℕ} {new new' : Types.Header} {acc acc' : List Types.Header}, bc.LinkedAt rlp new →
      bc.walkNew rlp oldHeader fuel new acc = .ok (new', acc') →
      ∀ h ∈ acc', h ∈ acc ∨ oldHeader.number.toNat ≤ h.number.toNat
  | 0, _, _, _, _, _, h => by cases h
  | fuel + 1, new, new', acc, acc', hnew, h => by
    unfold walkNew at h
    by_cases hlt : oldHeader.number < new.number
    · rw [if_pos hlt] at h
      have hlt' := UInt64.lt_iff_toNat_lt.mp hlt
      obtain ⟨p, hp, hpn⟩ := hnew (by omega)
      rw [hp] at h
      intro h' hmem
      rcases walkNew_mem hL (hL _ _ hp) h h' hmem with hacc | hle
      · rcases List.mem_append.mp hacc with hacc | hp'
        · exact .inl hacc
        · rw [List.mem_singleton.mp hp']
          exact .inr (by omega)
      · exact .inr hle
    · rw [if_neg hlt] at h
      cases h
      exact fun h' hmem => .inl hmem

/-! ## Writers -/

section Writers

variable (db : Db)

theorem foldl_putCanonicalHash_of_ne {t : Table} (ht : t ≠ .canonical) :
    ∀ (hs : List Types.Header) (w : Writer),
      (hs.foldl (fun w h => w.putCanonicalHash h.number (headerHash h)) w).writeBatch db t =
        w.writeBatch db t
  | [], _ => rfl
  | h :: hs, w => by
    rw [List.foldl_cons, foldl_putCanonicalHash_of_ne ht hs, Writer.putCanonicalHash,
      Writer.writeBatch_putIntoTable, Db.put_table_of_ne ht]

theorem foldl_putCanonicalHash_below {m : ℕ} {k : UInt64} (hk : k.toNat < m) :
    ∀ (hs : List Types.Header) (w : Writer), (∀ h ∈ hs, m ≤ h.number.toNat) →
      (hs.foldl (fun w h => w.putCanonicalHash h.number (headerHash h)) w).writeBatch db .canonical
          (encodeUint64ToBytes k) = w.writeBatch db .canonical (encodeUint64ToBytes k)
  | [], _, _ => rfl
  | h :: hs, w, hm => by
    have hne : encodeUint64ToBytes k ≠ encodeUint64ToBytes h.number := by
      rw [Ne, encodeUint64ToBytes_inj, ← UInt64.toNat_inj]
      have := hm h List.mem_cons_self
      omega
    rw [List.foldl_cons, foldl_putCanonicalHash_below hk hs _
      (fun h' hh' => hm h' (List.mem_cons_of_mem h hh')), Writer.putCanonicalHash,
      Writer.writeBatch_putIntoTable, Db.put_of_ne_key hne]

variable (w : Writer) (hd : Types.Header) (x : Hash) (td : ℕ)

theorem putCanonicalHeader_header :
    (w.putCanonicalHeader rlp hd x td).writeBatch db .header =
      (w.writeBatch db).put .header (getKey hd.number x) (hd.marshalRLPTo rlp) .header := by
  simp [Writer.putCanonicalHeader, Writer.putHeader, Writer.putHeadHash, Writer.putHeadNumber,
    Writer.putBlockLookup, Writer.putCanonicalHash, Writer.putTotalDifficulty, Db.put_table_self]

theorem putCanonicalHeader_blockLookup :
    (w.putCanonicalHeader rlp hd x td).writeBatch db .blockLookup =
      (w.writeBatch db).put .blockLookup (Hash.bytes x) (encodeUint64ToBytes hd.number)
        .blockLookup := by
  simp [Writer.putCanonicalHeader, Writer.putHeader, Writer.putHeadHash, Writer.putHeadNumber,
    Writer.putBlockLookup, Writer.putCanonicalHash, Writer.putTotalDifficulty, Db.put_table_self]

theorem putCanonicalHeader_canonical_of_ne {k : UInt64} (hk : k ≠ hd.number) :
    (w.putCanonicalHeader rlp hd x td).writeBatch db .canonical (encodeUint64ToBytes k) =
      w.writeBatch db .canonical (encodeUint64ToBytes k) := by
  have hne : encodeUint64ToBytes k ≠ encodeUint64ToBytes hd.number := by
    rwa [Ne, encodeUint64ToBytes_inj]
  simp [Writer.putCanonicalHeader, Writer.putHeader, Writer.putHeadHash, Writer.putHeadNumber,
    Writer.putBlockLookup, Writer.putCanonicalHash, Writer.putTotalDifficulty, Db.put_of_ne_key hne]

end Writers

/-! ## The three ways of `writeHeaderImpl` -/

theorem foldl_addOldHeader_newChain (hs : List Types.Header) (e : Event) :
    (hs.foldl Event.addOldHeader e).newChain = e.newChain := by
  induction hs generalizing e with
  | nil => rfl
  | cons h hs ih => exact ih _

theorem foldl_addNewHeader_newChain (hs : List Types.Header) (e : Event) :
    (hs.foldl Event.addNewHeader e).newChain = e.newChain ++ hs := by
  induction hs generalizing e with
  | nil => simp
  | cons h hs ih => simp [ih, Event.addNewHeader]

theorem handleReorg_eq_ok {w w' : Writer} {ev ev' : Event} {oldHeader newHeader : Types.Header} {td : ℕ}
    (h : bc.handleReorg rlp headerHash w ev oldHeader newHeader td = .ok (w', ev')) :
    ∃ old oldChain new newChain forks,
      bc.walkOld rlp newHeader (reorgFuel oldHeader newHeader) oldHeader [] = .ok (old, oldChain) ∧
      bc.walkNew rlp old (reorgFuel oldHeader newHeader) newHeader [] = .ok (new, newChain) ∧
      w' = newChain.foldl (fun w h => w.putCanonicalHash h.number (headerHash h)) (w.putForks rlp forks) ∧
      ev'.newChain = ev.newChain ++ newHeader :: newChain := by
  unfold handleReorg at h
  obtain ⟨⟨old, oldChain⟩, h₁, h⟩ := bindM_eq_ok.mp h
  obtain ⟨⟨new, newChain⟩, h₂, h⟩ := bindM_eq_ok.mp h
  obtain ⟨⟨_, _, oldChain'⟩, -, h⟩ := bindM_eq_ok.mp h
  obtain ⟨forks, -, h⟩ := bindM_eq_ok.mp h
  split at h
  · cases h
  · cases h
    refine ⟨old, oldChain, new, newChain, forks, h₁, h₂, rfl, ?_⟩
    simp [foldl_addNewHeader_newChain, foldl_addOldHeader_newChain, Event.addNewHeader,
      Event.addOldHeader]

theorem writeHeaderImpl_eq_ok {w w' : Writer} {ev ev' : Event} {hd : Types.Header} {canon : Bool}
    {td : Option ℕ} (h : bc.writeHeaderImpl rlp headerHash w ev hd = .ok (canon, td, w', ev')) :
    ∃ incomingTD,
      (hd.parentHash = headerHash bc.currentHeader ∧ canon = true ∧ td = some incomingTD ∧
        w' = w.putCanonicalHeader rlp hd (headerHash hd) incomingTD ∧
        ev'.newChain = ev.newChain ++ [hd]) ∨
      (hd.parentHash ≠ headerHash bc.currentHeader ∧ canon = true ∧ td = some incomingTD ∧
        ∃ w₁, bc.handleReorg rlp headerHash w ev bc.currentHeader hd incomingTD = .ok (w₁, ev') ∧
          w' = w₁.putCanonicalHeader rlp hd (headerHash hd) incomingTD) ∨
      (hd.parentHash ≠ headerHash bc.currentHeader ∧ canon = false ∧ td = none ∧
        ∃ forks, w' = (((w.putHeader rlp hd (headerHash hd)).putTotalDifficulty hd.number
          (headerHash hd) incomingTD).putForks rlp forks).putBlockLookup (headerHash hd) hd.number ∧
          ev'.newChain = ev.newChain) := by
  unfold writeHeaderImpl at h
  split at h
  · rename_i ptd _
    refine ⟨ptd + hd.difficulty.toNat, ?_⟩
    dsimp only at h
    split at h
    · rename_i hparent
      cases h
      exact .inl ⟨hparent, rfl, rfl, rfl, by simp [Event.addNewHeader]⟩
    · rename_i hparent
      split at h
      · split at h
        · obtain ⟨⟨w₁, ev₁⟩, hreorg, h⟩ := bindM_eq_ok.mp h
          cases h
          exact .inr (.inl ⟨hparent, rfl, rfl, w₁, hreorg, rfl⟩)
        · obtain ⟨forks, -, h⟩ := bindM_eq_ok.mp h
          cases h
          exact .inr (.inr ⟨hparent, rfl, rfl, forks, rfl, by simp [Event.addOldHeader]⟩)
      · cases h
  · cases h

/-! ## The canonical index below both heads -/

section Frame

variable {w w' : Writer} {ev ev' : Event} {hd : Types.Header} {canon : Bool} {td : Option ℕ}

theorem handleReorg_newChain {w₁ : Writer} {incomingTD : ℕ} (hL : bc.Linked rlp)
    (hO : bc.LinkedAt rlp bc.currentHeader) (hN : bc.LinkedAt rlp hd)
    (h : bc.handleReorg rlp headerHash w ev bc.currentHeader hd incomingTD = .ok (w₁, ev')) :
    ∃ newChain forks, (∀ x ∈ newChain, min bc.currentHeader.number.toNat hd.number.toNat ≤ x.number.toNat) ∧
      w₁ = newChain.foldl (fun w h => w.putCanonicalHash h.number (headerHash h)) (w.putForks rlp forks) ∧
      ev'.newChain = ev.newChain ++ hd :: newChain := by
  obtain ⟨old, oldChain, new, newChain, forks, h₁, h₂, hw, hev⟩ := handleReorg_eq_ok headerHash h
  obtain ⟨hold, holdLinked⟩ := walkOld_number hL hO h₁
  have hmem := walkNew_mem hL hN h₂
  refine ⟨newChain, forks, fun x hx => ?_, hw, hev⟩
  rcases hmem x hx with hx | hle
  · cases hx
  · rw [← hold]
    exact hle

theorem writeHeaderImpl_canonical_below (hL : bc.Linked rlp) (hO : bc.LinkedAt rlp bc.currentHeader)
    (hN : bc.LinkedAt rlp hd) (h : bc.writeHeaderImpl rlp headerHash w ev hd = .ok (canon, td, w', ev')) :
    (∀ db k, k.toNat < min bc.currentHeader.number.toNat hd.number.toNat →
      w'.writeBatch db .canonical (encodeUint64ToBytes k) =
        w.writeBatch db .canonical (encodeUint64ToBytes k)) ∧
    ∀ x ∈ ev'.newChain, x ∈ ev.newChain ∨ min bc.currentHeader.number.toNat hd.number.toNat ≤ x.number.toNat := by
  obtain ⟨incomingTD, hcase⟩ := writeHeaderImpl_eq_ok headerHash h
  have hne : ∀ k : UInt64, k.toNat < min bc.currentHeader.number.toNat hd.number.toNat → k ≠ hd.number := by
    intro k hk hkn
    rw [hkn] at hk
    omega
  rcases hcase with ⟨-, -, -, rfl, hev⟩ | ⟨-, -, -, w₁, hreorg, rfl⟩ | ⟨-, -, -, forks, rfl, hev⟩
  · refine ⟨fun db k hk => putCanonicalHeader_canonical_of_ne db w hd _ _ (hne k hk), ?_⟩
    intro x hx
    rw [hev, List.mem_append, List.mem_singleton] at hx
    rcases hx with hx | rfl
    · exact .inl hx
    · exact .inr (min_le_right _ _)
  · obtain ⟨newChain, forks, hm, rfl, hev⟩ := handleReorg_newChain headerHash hL hO hN hreorg
    constructor
    · intro db k hk
      rw [putCanonicalHeader_canonical_of_ne db _ hd _ _ (hne k hk),
        foldl_putCanonicalHash_below headerHash db hk newChain _ hm, Writer.putForks,
        Writer.writeBatch_putIntoTable, Db.put_table_of_ne (by decide)]
    · intro x hx
      rw [hev, List.mem_append, List.mem_cons] at hx
      rcases hx with hx | rfl | hx
      · exact .inl hx
      · exact .inr (min_le_right _ _)
      · exact .inr (hm x hx)
  · refine ⟨fun db k _ => ?_, fun x hx => .inl (hev ▸ hx)⟩
    simp [Writer.putHeader, Writer.putTotalDifficulty, Writer.putForks, Writer.putBlockLookup]

end Frame

/-! ## Stored headers -/

section Stored

variable {w w' : Writer} {ev ev' : Event} {hd : Types.Header} {canon : Bool} {td : Option ℕ}

theorem put_table_congr {db db' : Db} {t : Table} (h : db t = db' t) (k v : List UInt8) :
    db.put t k v t = db'.put t k v t := by
  rw [Db.put_table_self, Db.put_table_self, h]

theorem writeHeaderImpl_stores (h : bc.writeHeaderImpl rlp headerHash w ev hd = .ok (canon, td, w', ev'))
    (db : Db) :
    w'.writeBatch db .header =
        (w.writeBatch db).put .header (getKey hd.number (headerHash hd)) (hd.marshalRLPTo rlp) .header ∧
      w'.writeBatch db .blockLookup = (w.writeBatch db).put .blockLookup
        (Hash.bytes (headerHash hd)) (encodeUint64ToBytes hd.number) .blockLookup := by
  obtain ⟨incomingTD, hcase⟩ := writeHeaderImpl_eq_ok headerHash h
  rcases hcase with ⟨-, -, -, rfl, -⟩ | ⟨-, -, -, w₁, hreorg, rfl⟩ | ⟨-, -, -, forks, rfl, -⟩
  · exact ⟨putCanonicalHeader_header db w hd _ _, putCanonicalHeader_blockLookup db w hd _ _⟩
  · obtain ⟨old, oldChain, new, newChain, forks, -, -, rfl, -⟩ := handleReorg_eq_ok headerHash hreorg
    have hframe : ∀ t, t ≠ .canonical → t ≠ .fork →
        (newChain.foldl (fun w h => w.putCanonicalHash h.number (headerHash h))
          (w.putForks rlp forks)).writeBatch db t = w.writeBatch db t := by
      intro t ht hf
      rw [foldl_putCanonicalHash_of_ne headerHash db ht, Writer.putForks,
        Writer.writeBatch_putIntoTable, Db.put_table_of_ne hf]
    rw [putCanonicalHeader_header, putCanonicalHeader_blockLookup]
    exact ⟨put_table_congr (hframe _ (by decide) (by decide)) _ _,
      put_table_congr (hframe _ (by decide) (by decide)) _ _⟩
  · simp [Writer.putHeader, Writer.putTotalDifficulty, Writer.putForks, Writer.putBlockLookup,
      Db.put_table_self]

theorem readHeader_of_stores (hrlp : rlp.Lawful) {bc bc' : Blockchain} {y : Hash}
    (hlen : (hd.marshalRLPTo rlp).length < 2 ^ 64)
    (hh : bc'.db .header = bc.db.put .header (getKey hd.number y) (hd.marshalRLPTo rlp) .header)
    (hl : bc'.db .blockLookup =
      bc.db.put .blockLookup (Hash.bytes y) (encodeUint64ToBytes hd.number) .blockLookup)
    (x : Hash) : bc'.readHeader rlp x = if x = y then some hd else bc.readHeader rlp x := by
  unfold Blockchain.readHeader readBlockLookup Storage.readHeader readRLP
  rw [hl, hh]
  by_cases hx : x = y
  · subst hx
    simp [Types.Header.unmarshalRLP_marshalRLPTo hrlp hlen, Except.mapError]
  · have hb : Hash.bytes x ≠ Hash.bytes y := fun he => hx (hash_bytes_inj he)
    simp only [Db.put_table_self, hb, if_false, hx]
    split
    · rename_i n _
      have hk : getKey n x ≠ getKey hd.number y := fun he => hx (getKey_inj.mp he).2
      simp only [hk, if_false]
    · rfl

theorem db_writeBatchAndUpdate (w : Writer) (hd : Types.Header) (td : Option ℕ) (canon : Bool) :
    (bc.writeBatchAndUpdate w hd td canon).db = w.writeBatch bc.db := by
  cases canon <;> rfl

theorem currentHeader_writeBatchAndUpdate (w : Writer) (hd : Types.Header) (td : Option ℕ) (canon : Bool) :
    (bc.writeBatchAndUpdate w hd td canon).currentHeader = if canon then hd else bc.currentHeader := by
  cases canon <;> rfl

theorem readHeader_writeHeader (hrlp : rlp.Lawful) {bc' : Blockchain}
    (hlen : (hd.marshalRLPTo rlp).length < 2 ^ 64)
    (h : bc.writeHeader rlp headerHash hd = .ok (bc', ev')) (x : Hash) :
    bc'.readHeader rlp x = if x = headerHash hd then some hd else bc.readHeader rlp x := by
  obtain ⟨⟨canon, td, w', ev''⟩, himpl, h⟩ := bindM_eq_ok.mp h
  cases h
  obtain ⟨hh, hl⟩ := writeHeaderImpl_stores headerHash himpl bc.db
  exact readHeader_of_stores hrlp hlen (by rw [db_writeBatchAndUpdate]; exact hh)
    (by rw [db_writeBatchAndUpdate]; exact hl) x

end Stored

/-! ## Linked stores -/

section Linked

variable {bc' : Blockchain} {hd : Types.Header} {ev : Event}

theorem LinkedAt.mono (hmono : ∀ y p, bc.readHeader rlp y = some p → bc'.readHeader rlp y = some p)
    {g : Types.Header} (hg : bc.LinkedAt rlp g) : bc'.LinkedAt rlp g := fun hpos => by
  obtain ⟨p, hp, hpn⟩ := hg hpos
  exact ⟨p, hmono _ _ hp, hpn⟩

theorem linked_writeHeader (hrlp : rlp.Lawful) (hL : bc.Linked rlp)
    (hO : bc.LinkedAt rlp bc.currentHeader) (hN : bc.LinkedAt rlp hd)
    (hfresh : bc.readHeader rlp (headerHash hd) = none) (hlen : (hd.marshalRLPTo rlp).length < 2 ^ 64)
    (h : bc.writeHeader rlp headerHash hd = .ok (bc', ev)) :
    bc'.Linked rlp ∧ bc'.LinkedAt rlp bc'.currentHeader := by
  have hread := readHeader_writeHeader headerHash hrlp hlen h
  have hmono : ∀ y p, bc.readHeader rlp y = some p → bc'.readHeader rlp y = some p := by
    intro y p hp
    rw [hread]
    split
    · rename_i hy
      rw [hy, hfresh] at hp
      cases hp
    · exact hp
  constructor
  · intro x g hg
    rw [hread] at hg
    split at hg
    · cases hg
      exact hN.mono hmono
    · exact (hL x g hg).mono hmono
  · obtain ⟨⟨canon, td, w', ev'⟩, -, h⟩ := bindM_eq_ok.mp h
    cases h
    rw [currentHeader_writeBatchAndUpdate]
    split
    · exact hN.mono hmono
    · exact hO.mono hmono

theorem linked_writeGenesisImpl (hrlp : rlp.Lawful) {g : Types.Header} (hg : g.number.toNat = 0)
    (hlen : (g.marshalRLPTo rlp).length < 2 ^ 64) :
    (writeGenesisImpl rlp headerHash (fun _ _ => none) g).Linked rlp ∧
      (writeGenesisImpl rlp headerHash (fun _ _ => none) g).LinkedAt rlp
        (writeGenesisImpl rlp headerHash (fun _ _ => none) g).currentHeader := by
  have hread : ∀ x, (writeGenesisImpl rlp headerHash (fun _ _ => none) g).readHeader rlp x =
      if x = headerHash g then some g else (⟨fun _ _ => none, g, 0⟩ : Blockchain).readHeader rlp x :=
    readHeader_of_stores hrlp hlen (putCanonicalHeader_header _ _ _ _ _)
      (putCanonicalHeader_blockLookup _ _ _ _ _)
  refine ⟨fun x hd' hx => ?_, fun hpos => by simp [writeGenesisImpl, hg] at hpos⟩
  rw [hread] at hx
  split at hx
  · cases hx
    intro hpos
    omega
  · simp [Blockchain.readHeader, readBlockLookup] at hx

variable (rlp) (bc) (hd) in
/-- The condition of a write that keeps the store linked: the header is new, its encoding fits a
slice, and its parent is stored one height below it unless it is at height zero. -/
def linkedStep : Bool :=
  (bc.readHeader rlp (headerHash hd)).isNone && decide ((hd.marshalRLPTo rlp).length < 2 ^ 64) &&
    (decide (hd.number.toNat = 0) ||
      match bc.readHeader rlp hd.parentHash with
      | some p => decide (p.number.toNat + 1 = hd.number.toNat)
      | none => false)

theorem linkedStep_spec (h : linkedStep rlp headerHash bc hd = true) :
    bc.readHeader rlp (headerHash hd) = none ∧ (hd.marshalRLPTo rlp).length < 2 ^ 64 ∧ bc.LinkedAt rlp hd := by
  simp only [linkedStep, Bool.and_eq_true, Option.isNone_iff_eq_none, decide_eq_true_eq,
    Bool.or_eq_true] at h
  obtain ⟨⟨hfresh, hlen⟩, hlink⟩ := h
  refine ⟨hfresh, hlen, fun hpos => ?_⟩
  rcases hlink with hzero | hparent
  · omega
  · split at hparent
    · rename_i p hp
      exact ⟨p, hp, of_decide_eq_true hparent⟩
    · cases hparent

variable (rlp) in
/-- Every header of a run of writes satisfies `linkedStep` where it is written. -/
def linkedRun : Blockchain → List Types.Header → Bool
  | _, [] => true
  | chain, hd :: rest =>
    linkedStep rlp headerHash chain hd &&
      match chain.writeHeader rlp headerHash hd with
      | .ok (chain', _) => linkedRun chain' rest
      | .error _ => true

theorem linked_writeHeaders (hrlp : rlp.Lawful) :
    ∀ {hs : List Types.Header} {bc bc' : Blockchain} {evs : List Event}, bc.Linked rlp →
      bc.LinkedAt rlp bc.currentHeader → linkedRun rlp headerHash bc hs = true →
      writeHeaders rlp headerHash bc hs = .ok (bc', evs) →
      bc'.Linked rlp ∧ bc'.LinkedAt rlp bc'.currentHeader
  | [], _, _, _, hL, hO, _, h => by
    cases h
    exact ⟨hL, hO⟩
  | hd :: rest, bc, bc', evs, hL, hO, hrun, h => by
    obtain ⟨⟨bc₁, ev₁⟩, h₁, h⟩ := bindM_eq_ok.mp h
    obtain ⟨⟨bc₂, evs₂⟩, h₂, h⟩ := bindM_eq_ok.mp h
    cases h
    simp only [linkedRun, Bool.and_eq_true, h₁] at hrun
    obtain ⟨hstep, hrest⟩ := hrun
    obtain ⟨hfresh, hlen, hN⟩ := linkedStep_spec headerHash hstep
    obtain ⟨hL₁, hO₁⟩ := linked_writeHeader headerHash hrlp hL hO hN hfresh hlen h₁
    exact linked_writeHeaders hrlp hL₁ hO₁ hrest h₂

end Linked

/-! ## The canonical index after a write -/

/-- On a linked store, writing a header leaves the canonical hashes below both the current head
and the header as they were, and reports no new header below them: a reorganization to a fork
that branched off below that keeps the old chain's hashes at those heights. -/
theorem writeHeader_keeps_canonical_below {bc bc' : Blockchain} {hd : Types.Header} {ev : Event}
    (hL : bc.Linked rlp) (hO : bc.LinkedAt rlp bc.currentHeader) (hN : bc.LinkedAt rlp hd)
    (h : bc.writeHeader rlp headerHash hd = .ok (bc', ev)) :
    (∀ k : UInt64, k.toNat < min bc.currentHeader.number.toNat hd.number.toNat →
      readCanonicalHash bc'.db k = readCanonicalHash bc.db k) ∧
    ∀ x ∈ ev.newChain, min bc.currentHeader.number.toNat hd.number.toNat ≤ x.number.toNat := by
  obtain ⟨⟨canon, td, w', ev'⟩, himpl, h⟩ := bindM_eq_ok.mp h
  cases h
  obtain ⟨hcanon, hnew⟩ := writeHeaderImpl_canonical_below headerHash hL hO hN himpl
  constructor
  · intro k hk
    apply readCanonicalHash_congr
    rw [db_writeBatchAndUpdate]
    exact hcanon bc.db k hk
  · intro x hx
    rcases hnew x hx with hx | hle
    · cases hx
    · exact hle

theorem length_emptyBloom : (List.replicate 256 (0 : UInt8)).length = 256 := List.length_replicate

/-- A header of the example below: its parent, its height and a tag byte as miner, with
difficulty one. -/
def exampleHeader (parent : Hash) (number : UInt64) (tag : UInt8) : Types.Header :=
  ⟨parent, 0, [tag], 0, 0, 0, ⟨List.replicate 256 0, length_emptyBloom⟩, 1, number, 0, 0, 0, [],
    0, nonceOf 0, 0⟩

/-- A stand-in for `ComputeHash` that tells the example's headers apart. -/
def exampleHash (h : Types.Header) : Hash :=
  ⟨(h.number.toNat * 256 + (h.miner.headD 0).toNat + 1) % 2 ^ 256, Nat.mod_lt _ (by norm_num)⟩

/-- The chain `G, A1, A2` is canonical; `B1, B2` fork off `G` without more difficulty, and `B3`
makes the fork heavier. After the reorganization the head is `B3`, whose ancestor at height one
is `B1`, but the canonical hash at height one is still `A1`'s, and the event reports `B3, B2` as
the new headers. -/
theorem writeHeader_keeps_canonical_below_deepFork :
    let G := exampleHeader 0 0 0
    let A1 := exampleHeader (exampleHash G) 1 1
    let A2 := exampleHeader (exampleHash A1) 2 1
    let B1 := exampleHeader (exampleHash G) 1 2
    let B2 := exampleHeader (exampleHash B1) 2 2
    let B3 := exampleHeader (exampleHash B2) 3 2
    match writeHeaders Rlp.ops exampleHash (writeGenesisImpl Rlp.ops exampleHash (fun _ _ => none) G)
        [A1, A2, B1, B2] with
    | .ok (bc, _) =>
      match bc.writeHeader Rlp.ops exampleHash B3 with
      | .ok (bc', ev) =>
        bc'.currentHeader = B3 ∧ B3.parentHash = exampleHash B2 ∧ B2.parentHash = exampleHash B1 ∧
          readCanonicalHash bc'.db 1 = some (exampleHash A1) ∧ exampleHash A1 ≠ exampleHash B1 ∧
          ev.newChain = [B3, B2]
      | .error _ => False
    | .error _ => False := by
  intro G A1 A2 B1 B2 B3
  obtain ⟨hL₀, hO₀⟩ := linked_writeGenesisImpl exampleHash Rlp.lawful_ops (g := G) rfl (by decide +kernel)
  have hrun : linkedRun Rlp.ops exampleHash (writeGenesisImpl Rlp.ops exampleHash (fun _ _ => none) G)
      [A1, A2, B1, B2] = true := by decide +kernel
  -- what the run computes, read off by evaluation
  have hstep : (writeHeaders Rlp.ops exampleHash (writeGenesisImpl Rlp.ops exampleHash (fun _ _ => none) G)
      [A1, A2, B1, B2]).toOption.map (fun r => linkedStep Rlp.ops exampleHash r.1 B3) = some true := by
    decide +kernel
  have hnum : (writeHeaders Rlp.ops exampleHash (writeGenesisImpl Rlp.ops exampleHash (fun _ _ => none) G)
      [A1, A2, B1, B2]).toOption.map (fun r => r.1.currentHeader.number) = some 2 := by
    decide +kernel
  have hcanon₁ : (writeHeaders Rlp.ops exampleHash (writeGenesisImpl Rlp.ops exampleHash (fun _ _ => none) G)
      [A1, A2, B1, B2]).toOption.map (fun r => readCanonicalHash r.1.db 1) =
      some (some (exampleHash A1)) := by
    decide +kernel
  have hnext : (writeHeaders Rlp.ops exampleHash (writeGenesisImpl Rlp.ops exampleHash (fun _ _ => none) G)
      [A1, A2, B1, B2]).toOption.map (fun r => (r.1.writeHeader Rlp.ops exampleHash B3).toOption.map
        fun r' => (r'.1.currentHeader, r'.2.newChain)) = some (some (B3, [B3, B2])) := by
    decide +kernel
  split
  · rename_i bc evs hbc
    simp only [hbc, Except.toOption, Option.map_some, Option.some.injEq] at hstep hnum hcanon₁ hnext
    obtain ⟨hL, hO⟩ := linked_writeHeaders exampleHash Rlp.lawful_ops hL₀ hO₀ hrun hbc
    obtain ⟨-, -, hN⟩ := linkedStep_spec exampleHash hstep
    split
    · rename_i bc' ev hbc'
      simp only [hbc', Option.map_some, Option.some.injEq, Prod.mk.injEq] at hnext
      obtain ⟨hhead, hnew⟩ := hnext
      have hk : (1 : UInt64).toNat < min bc.currentHeader.number.toNat B3.number.toNat := by
        rw [hnum]
        decide
      refine ⟨hhead, rfl, rfl, ?_, by decide, hnew⟩
      rw [(writeHeader_keeps_canonical_below exampleHash hL hO hN hbc').1 1 hk, hcanon₁]
    · rename_i e hbc'
      simp [hbc'] at hnext
  · rename_i e hbc
    simp [hbc, Except.toOption] at hstep

end Blade.Blockchain
