import Blade.Lib.Except
import Blade.Types.Transaction

/-!
The RLP decoders of `types/rlp_unmarshal.go`. fastrlp's `Parser.Parse` is a parameter
`parse`; its values are `Lib.Rlp.Item`s, with `GetElems` and `Bytes` failing on the other
kind of item. The per-element decoders (`Header`, the inner transaction data, the receipt
body) are parameters too: the list codec `unmarshalRLPFrom` takes its element decoder as a
callback in the source as well.

The codec reads the element list from left to right: a byte-string element is an EIP-2718
type prefix that belongs to the element after it (`i++`), any other element is a legacy
body. A list whose last element is such a prefix leaves `elems[i]` one past the end, and
the source indexes it anyway: a run-time panic, which the model returns as
`indexOutOfRange`. `Paired` says when this cannot happen.
-/

namespace Blade

open Lib Lib.Rlp

/-- How a decoder of this package ends besides returning a value: an error from fastrlp or
from this package, or a run-time panic of a slice index. -/
inductive DecodeError
  | notArray
  | notBytes
  | parse (msg : String)
  | msg (text : String)
  | indexOutOfRange (index length : ℕ)
  deriving DecidableEq, Repr

def DecodeError.isPanic : DecodeError → Bool
  | .indexOutOfRange _ _ => true
  | _ => false

/-! ## fastrlp values -/

def getElems : Item → Except DecodeError (List Item)
  | .list elems => .ok elems
  | .bytes _ => .error .notArray

def getBytes : Item → Except DecodeError (List UInt8)
  | .bytes b => .ok b
  | .list _ => .error .notBytes

def isTypeBytes : Item → Bool
  | .bytes _ => true
  | .list _ => false

def TxType.unmarshalRLPFrom (v : Item) : Except DecodeError TxType :=
  (getBytes v).bind fun bytes =>
    match bytes with
    | [b] => (txTypeFromByte b).mapError .msg
    | _ => .error (.msg ("expected 1 byte transaction type, but size is " ++ toString bytes.length))

theorem TxType.unmarshalRLPFrom_bytes {b : UInt8} {tt : TxType} (h : txTypeFromByte b = .ok tt) :
    TxType.unmarshalRLPFrom (.bytes [b]) = .ok tt := by
  simp [TxType.unmarshalRLPFrom, getBytes, h, Except.mapError]

theorem TxType.unmarshalRLPFrom_ne_panic {v : Item} {e : DecodeError}
    (h : TxType.unmarshalRLPFrom v = .error e) : e.isPanic = false := by
  cases v with
  | list items => cases h; rfl
  | bytes b =>
    simp only [TxType.unmarshalRLPFrom, getBytes, bind_ok] at h
    split at h
    · unfold Except.mapError at h
      split at h <;> cases h
      rfl
    · cases h; rfl

/-! ## The type-prefixed list codec -/

section Codec

variable {σ : Type} (cb : σ → TxType → Item → Except DecodeError σ)

/-- The `for` loop of `unmarshalRLPFrom` over `elems`, from index `i` on: the list argument is
`elems.drop i` and `n = len(elems)`, read only by the panic. -/
def unmarshalRLPFromLoop (n : ℕ) : ℕ → List Item → σ → Except DecodeError σ
  | _, [], s => .ok s
  | i, e :: rest, s =>
    if isTypeBytes e then
      (TxType.unmarshalRLPFrom e).bind fun txType =>
        -- `i++` moves to the body; after the last element `elems[i]` is out of range
        match rest with
        | [] => .error (.indexOutOfRange (i + 1) n)
        | body :: rest' =>
          (cb s txType body).bind fun s' => unmarshalRLPFromLoop n (i + 2) rest' s'
    else (cb s .legacy e).bind fun s' => unmarshalRLPFromLoop n (i + 1) rest s'

/-- `unmarshalRLPFrom(p, v, cb)`, with the callback's effect threaded as `σ`. -/
def unmarshalRLPFrom (v : Item) (s : σ) : Except DecodeError σ :=
  (getElems v).bind fun elems => unmarshalRLPFromLoop cb elems.length 0 elems s

/-- The element lists the codec walks to their end: legacy bodies, and type prefixes each
followed by a body. -/
inductive Paired : List Item → Prop
  | nil : Paired []
  | legacy {items : List Item} {rest : List Item} : Paired rest → Paired (.list items :: rest)
  | typed {b : List UInt8} {body : Item} {rest : List Item} :
      Paired rest → Paired (.bytes b :: body :: rest)

variable {cb}

theorem paired_of_unmarshalRLPFromLoop_ok {n : ℕ} {s' : σ} :
    ∀ {i : ℕ} {elems : List Item} {s : σ},
      unmarshalRLPFromLoop cb n i elems s = .ok s' → Paired elems
  | _, [], _, _ => .nil
  | _, .list _ :: _, _, h => by
    simp only [unmarshalRLPFromLoop, isTypeBytes, Bool.false_eq_true, ↓reduceIte] at h
    obtain ⟨_, -, h₁⟩ := bind_eq_ok.mp h
    exact .legacy (paired_of_unmarshalRLPFromLoop_ok h₁)
  | _, [.bytes _], _, h => by
    simp only [unmarshalRLPFromLoop, isTypeBytes, ↓reduceIte] at h
    obtain ⟨_, -, h₁⟩ := bind_eq_ok.mp h
    cases h₁
  | _, .bytes _ :: _ :: _, _, h => by
    simp only [unmarshalRLPFromLoop, isTypeBytes, ↓reduceIte] at h
    obtain ⟨_, -, h₁⟩ := bind_eq_ok.mp h
    obtain ⟨_, -, h₂⟩ := bind_eq_ok.mp h₁
    exact .typed (paired_of_unmarshalRLPFromLoop_ok h₂)

theorem unmarshalRLPFromLoop_append {n i : ℕ} {pre : List Item} (hpre : Paired pre)
    (rest : List Item) (s : σ) :
    unmarshalRLPFromLoop cb n i (pre ++ rest) s =
      (unmarshalRLPFromLoop cb n i pre s).bind fun s' =>
        unmarshalRLPFromLoop cb n (i + pre.length) rest s' := by
  induction hpre generalizing i s with
  | nil => simp [unmarshalRLPFromLoop]
  | @legacy items rest' _ ih =>
    simp only [List.cons_append, unmarshalRLPFromLoop, isTypeBytes, Bool.false_eq_true,
      ↓reduceIte]
    cases cb s .legacy (.list items) with
    | error err => rfl
    | ok s₁ =>
      rw [bind_ok, bind_ok, ih, List.length_cons,
        show i + 1 + rest'.length = i + (rest'.length + 1) by omega]
  | @typed b body rest' _ ih =>
    simp only [List.cons_append, unmarshalRLPFromLoop, isTypeBytes, ↓reduceIte]
    cases TxType.unmarshalRLPFrom (.bytes b) with
    | error err => rfl
    | ok tt =>
      simp only [bind_ok]
      cases cb s tt body with
      | error err => rfl
      | ok s₁ =>
        rw [bind_ok, bind_ok, ih, List.length_cons, List.length_cons,
          show i + 2 + rest'.length = i + (rest'.length + 1 + 1) by omega]

theorem unmarshalRLPFromLoop_dangling {n i : ℕ} {pre : List Item} (hpre : Paired pre)
    {s s' : σ} (hok : unmarshalRLPFromLoop cb n i pre s = .ok s') {b : UInt8} {tt : TxType}
    (hb : txTypeFromByte b = .ok tt) :
    unmarshalRLPFromLoop cb n i (pre ++ [.bytes [b]]) s =
      .error (.indexOutOfRange (i + pre.length + 1) n) := by
  rw [unmarshalRLPFromLoop_append hpre, hok, bind_ok]
  simp [unmarshalRLPFromLoop, isTypeBytes, TxType.unmarshalRLPFrom_bytes hb]

theorem unmarshalRLPFromLoop_ne_panic (hcb : ∀ s tt v e, cb s tt v = .error e → e.isPanic = false)
    {n i : ℕ} {elems : List Item} (hp : Paired elems) {s : σ} {e : DecodeError}
    (h : unmarshalRLPFromLoop cb n i elems s = .error e) : e.isPanic = false := by
  induction hp generalizing i s with
  | nil => cases h
  | @legacy items rest _ ih =>
    simp only [unmarshalRLPFromLoop, isTypeBytes, Bool.false_eq_true, ↓reduceIte] at h
    rcases bind_eq_error.mp h with hcb' | ⟨s₁, -, h₁⟩
    · exact hcb _ _ _ _ hcb'
    · exact ih h₁
  | @typed b body rest _ ih =>
    simp only [unmarshalRLPFromLoop, isTypeBytes, ↓reduceIte] at h
    rcases bind_eq_error.mp h with htt | ⟨tt, -, h₁⟩
    · exact TxType.unmarshalRLPFrom_ne_panic htt
    · rcases bind_eq_error.mp h₁ with hcb' | ⟨s₁, -, h₂⟩
      · exact hcb _ _ _ _ hcb'
      · exact ih h₂

end Codec

/-! ## The decoders -/

section Decoders

variable (parse : List UInt8 → Except String Item) {τ ρ η : Type}

def unmarshalRlp {α : Type} (handler : Item → Except DecodeError α) (input : List UInt8) :
    Except DecodeError α :=
  match parse input with
  | .error err => .error (.parse err)
  | .ok v => handler v

/-- The callback of the list decoders: decode the element with its type and append it. -/
def appendDecoded {α : Type} (dec : TxType → Item → Except DecodeError α) (acc : List α)
    (txType : TxType) (v : Item) : Except DecodeError (List α) :=
  (dec txType v).map fun x => acc ++ [x]

/-- `(*Transactions).UnmarshalRLP`; `unmarshalTx` is `NewTxWithType` followed by the inner
data's `unmarshalRLPFrom`. -/
def transactionsUnmarshalRLP (unmarshalTx : TxType → Item → Except DecodeError τ)
    (input : List UInt8) : Except DecodeError (List τ) :=
  unmarshalRlp parse (fun v => unmarshalRLPFrom (appendDecoded unmarshalTx) v []) input

/-- `(*Receipts).UnmarshalRLP`; `unmarshalReceipt` is `(*Receipt).unmarshalRLPFrom` on a
receipt of the given type. -/
def receiptsUnmarshalRLP (unmarshalReceipt : TxType → Item → Except DecodeError ρ)
    (input : List UInt8) : Except DecodeError (List ρ) :=
  unmarshalRlp parse (fun v => unmarshalRLPFrom (appendDecoded unmarshalReceipt) v []) input

structure Block (η τ : Type) where
  header : η
  transactions : List τ
  uncles : List η

/-- `(*Block).unmarshalRLPFrom`: header, transactions through the list codec, uncles. -/
def Block.unmarshalRLPFrom (unmarshalHeader : Item → Except DecodeError η)
    (unmarshalTx : TxType → Item → Except DecodeError τ) (v : Item) :
    Except DecodeError (Block η τ) :=
  (getElems v).bind fun elems =>
    match elems with
    | e₀ :: e₁ :: e₂ :: _ =>
      (unmarshalHeader e₀).bind fun header =>
        (Blade.unmarshalRLPFrom (appendDecoded unmarshalTx) e₁ []).bind fun txs =>
          (getElems e₂).bind fun uncles =>
            (uncles.mapM unmarshalHeader).map fun us => ⟨header, txs, us⟩
    | _ => .error (.msg ("incorrect number of elements to decode block, expected 3 but found " ++
        toString elems.length))

def Block.unmarshalRLP (unmarshalHeader : Item → Except DecodeError η)
    (unmarshalTx : TxType → Item → Except DecodeError τ) (input : List UInt8) :
    Except DecodeError (Block η τ) :=
  unmarshalRlp parse (Block.unmarshalRLPFrom unmarshalHeader unmarshalTx) input

/-- The EIP-2718 envelope of `(*Transaction).UnmarshalRLP` and `(*Receipt).UnmarshalRLP`: a
first byte up to `RLPSingleByteUpperLimit` is the type, and the RLP starts after it. -/
def typedUnmarshalRLP {α : Type} (dec : TxType → Item → Except DecodeError α)
    (input : List UInt8) : Except DecodeError α :=
  match input with
  | b :: rest =>
    if b.toNat ≤ 0x7f then
      ((txTypeFromByte b).mapError .msg).bind fun txType => unmarshalRlp parse (dec txType) rest
    else unmarshalRlp parse (dec .legacy) input
  | [] => unmarshalRlp parse (dec .legacy) []

def transactionUnmarshalRLP (unmarshalTx : TxType → Item → Except DecodeError τ)
    (input : List UInt8) : Except DecodeError τ :=
  typedUnmarshalRLP parse unmarshalTx input

def receiptUnmarshalRLP (unmarshalReceipt : TxType → Item → Except DecodeError ρ)
    (input : List UInt8) : Except DecodeError ρ :=
  typedUnmarshalRLP parse unmarshalReceipt input

variable {parse}

/-- The single-item decoders add no panic of their own: the envelope only reads bytes that
it has checked to be there. -/
theorem typedUnmarshalRLP_ne_panic {α : Type} {dec : TxType → Item → Except DecodeError α}
    (hdec : ∀ tt v e, dec tt v = .error e → e.isPanic = false) {input : List UInt8}
    {e : DecodeError} (h : typedUnmarshalRLP parse dec input = .error e) : e.isPanic = false := by
  have hrlp : ∀ tt bs, unmarshalRlp parse (dec tt) bs = .error e → e.isPanic = false := by
    intro tt bs hbs
    unfold unmarshalRlp at hbs
    split at hbs
    · cases hbs; rfl
    · exact hdec _ _ _ hbs
  unfold typedUnmarshalRLP at h
  split at h
  · split at h
    · rcases bind_eq_error.mp h with htt | ⟨tt, -, hrest⟩
      · unfold Except.mapError at htt
        split at htt <;> cases htt
        rfl
      · exact hrlp _ _ hrest
    · exact hrlp _ _ h
  · exact hrlp _ _ h

/-- The list decoders panic on every input that fastrlp reads as a list whose elements
decode up to a trailing type byte. -/
theorem unmarshalRLPFrom_dangling {α : Type} {dec : TxType → Item → Except DecodeError α}
    {pre : List Item} (hpre : Paired pre) {acc : List α}
    (hok : unmarshalRLPFromLoop (appendDecoded dec) (pre.length + 1) 0 pre [] = .ok acc)
    {b : UInt8} {tt : TxType} (hb : txTypeFromByte b = .ok tt) :
    unmarshalRLPFrom (appendDecoded dec) (.list (pre ++ [.bytes [b]])) [] =
      .error (.indexOutOfRange (pre.length + 1) (pre.length + 1)) := by
  simp only [unmarshalRLPFrom, getElems, bind_ok, List.length_append, List.length_singleton]
  rw [unmarshalRLPFromLoop_dangling hpre hok hb, Nat.zero_add]

end Decoders

end Blade
