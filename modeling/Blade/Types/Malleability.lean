import Blade.Types.Codec

/-!
Transaction bytes that `UnmarshalRLP` accepts but that are not the encoding of the transaction
they decode to (`legacy_tx.go`, `state_tx.go`, `access_list_tx.go`, `dynamic_fee_tx.go`).

Each decoder reads the recipient with `Bytes()` and keeps it only when it has twenty bytes; any
other byte string, like the empty one, gives a nil recipient. A transaction without recipient
therefore decodes from every encoding whose recipient field is a byte string of another length,
and encoding what was decoded writes the empty string there: those bytes are not the bytes
that were decoded, and their hash is not the hash of the decoded transaction.
-/

namespace Blade

open Lib Lib.Rlp

/-- The position of the recipient in the RLP list of each type. -/
def TxType.recipientIndex : TxType → ℕ
  | .legacy => 3
  | .state => 3
  | .accessList => 4
  | .dynamicFee => 5

/-- An RLP list with its element at `i` replaced. -/
def Lib.Rlp.Item.setElem (it : Item) (i : ℕ) (x : Item) : Item :=
  match it with
  | .list items => .list (items.set i x)
  | it => it

namespace Transaction

section Recipient

variable (rlp : RlpOps)

/-- The bytes of a transaction with its recipient field written as the byte string `junk`. -/
def marshalRLPToWithRecipient (t : Transaction) (junk : List UInt8) : List UInt8 :=
  (if t.type ≠ .legacy then [t.type.toByte] else []) ++
    rlp.marshalTo ((t.marshalRLPWith rlp).setElem t.type.recipientIndex (.bytes junk))

theorem recipient_marshalRLPWith (t : Transaction) :
    ∃ items, t.marshalRLPWith rlp = .list items ∧ t.type.recipientIndex < items.length ∧
      items[t.type.recipientIndex]? = some (toItem t.«to») := by
  cases t <;> exact ⟨_, rfl, by simp [type, TxType.recipientIndex], rfl⟩

variable {rlp}

theorem unmarshalRLPFrom_setRecipient (t : Transaction) {x : Item}
    (hx : decodeAddress x = decodeAddress (toItem t.«to»)) :
    unmarshalRLPFrom rlp t.type ((t.marshalRLPWith rlp).setElem t.type.recipientIndex x) =
      unmarshalRLPFrom rlp t.type (t.marshalRLPWith rlp) := by
  -- the four decoders read the recipient at their own index, through `decodeAddress` alone
  cases t <;>
  · simp only [type, TxType.recipientIndex, marshalRLPWith, Item.setElem, List.set_cons_succ,
      List.set_cons_zero]
    simp only [unmarshalRLPFrom, LegacyTx.unmarshalRLPFrom, StateTx.unmarshalRLPFrom,
      AccessListTxn.unmarshalRLPFrom, DynamicFeeTx.unmarshalRLPFrom, getElems, bind_ok]
    rw [hx]
    rfl

end Recipient

/-- A transaction without recipient, encoded with a recipient field of any length but twenty,
decodes to what its own encoding decodes to, and encoding that gives other bytes whenever the
field is not empty. -/
theorem unmarshalRLP_recipient_malleable (rlp : RlpOps) (hrlp : rlp.Lawful) {t : Transaction}
    (h : t.encodable = true) (hto : t.«to» = none) {junk : List UInt8} (hjunk : junk.length ≠ 20)
    (hlen : (rlp.marshalTo ((t.marshalRLPWith rlp).setElem t.type.recipientIndex
      (.bytes junk))).length < 2 ^ 64) :
    unmarshalRLP rlp (t.marshalRLPToWithRecipient rlp junk) = .ok t.encodedPart ∧
      (junk ≠ [] → t.encodedPart.marshalRLPTo rlp ≠ t.marshalRLPToWithRecipient rlp junk) := by
  obtain ⟨items, hitems, hidx, hget⟩ := t.recipient_marshalRLPWith rlp
  rw [hto] at hget
  have hx : decodeAddress (.bytes junk) = decodeAddress (toItem t.«to») := by
    rw [hto]
    simp [decodeAddress, getBytes, toItem, newNull, hjunk]
  have hbody := (t.unmarshalRLPFrom_setRecipient hx).trans (unmarshalRLPFrom_marshalRLPWith hrlp h)
  rw [hitems] at hbody hlen
  simp only [Item.setElem] at hbody hlen
  refine ⟨?_, fun hne heq => ?_⟩
  · unfold marshalRLPToWithRecipient
    rw [hitems]
    exact unmarshalRLP_typed_encode hrlp hlen hbody
  · -- equal bytes would be equal lists, the empty recipient standing where `junk` stands
    rw [marshalRLPTo_encodedPart] at heq
    unfold marshalRLPTo marshalRLPToWithRecipient at heq
    rw [hitems] at heq
    simp only [Item.setElem, List.append_cancel_left_eq] at heq
    have hset : items.set t.type.recipientIndex (.bytes junk) = items :=
      Item.list.inj (hrlp.marshalTo_inj hlen heq.symm)
    have := congrArg (·[t.type.recipientIndex]?) hset
    simp only [hget, List.getElem?_set_self hidx, toItem, newNull, Option.some.injEq,
      Item.bytes.injEq] at this
    exact hne this

/-- A legacy transfer without recipient whose recipient field is the one byte `0x01`: the
twelve bytes decode to the transaction whose encoding has `0x80` there. -/
theorem unmarshalRLP_recipient_malleable_legacy :
    let t : Transaction := .legacyTx ⟨⟨0, 21000, none, some 0, [], some 27, some 1, some 1, 0⟩, some 1⟩
    t.marshalRLPToWithRecipient Rlp.ops [1] =
        [0xcb, 0x80, 0x01, 0x82, 0x52, 0x08, 0x01, 0x80, 0x80, 0x1b, 0x01, 0x01] ∧
      t.marshalRLPTo Rlp.ops =
        [0xcb, 0x80, 0x01, 0x82, 0x52, 0x08, 0x80, 0x80, 0x80, 0x1b, 0x01, 0x01] ∧
      (unmarshalRLP Rlp.ops (t.marshalRLPToWithRecipient Rlp.ops [1]) = .ok t.encodedPart ∧
        (([1] : List UInt8) ≠ [] →
          t.encodedPart.marshalRLPTo Rlp.ops ≠ t.marshalRLPToWithRecipient Rlp.ops [1])) :=
  ⟨by decide, by decide,
    @unmarshalRLP_recipient_malleable Rlp.ops Rlp.lawful_ops
      (.legacyTx ⟨⟨0, 21000, none, some 0, [], some 27, some 1, some 1, 0⟩, some 1⟩)
      (by decide) rfl [1] (by decide) (by decide)⟩

end Transaction

end Blade
