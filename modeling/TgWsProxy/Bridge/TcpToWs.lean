import TgWsProxy.Core.Source
import TgWsProxy.Bridge.MsgSplitter
import TgWsProxy.Obfuscation.ReEncrypt
import TgWsProxy.StreamReader

/-!
# From the client to the WebSocket

`tcp_to_ws` of `bridge_ws_reencrypt` in `proxy/bridge.py`, over any source of client octets.

* `tcpToWs` — the loop: the messages it sends, and how it ends.
* `MsgSplitter.Sound`, `split_sound` — a splitter holds back what it has not returned.
* `tcpToWs_of_readsAs` — of a client that can be read to its end, the relay sends every octet.
-/

namespace TgWsProxy

open Wire

/-! ## The code -/

/-- How `tcp_to_ws` ends: behind `b''`, or with an exception that becomes the close reason. -/
inductive ClientEnd
  | endOfStream
  | raised (e : IncompleteRead)
  deriving DecidableEq, Repr

/-- What the splitter still holds when the client has ended: `tail[0]`, if there is a tail. -/
def flushTail (splitter : Option MsgSplitter) : List Bytes :=
  match splitter with
  | none => []
  | some sp => sp.flush.1.head?.toList

/-- The messages for a chunk, and the splitter behind it. -/
def splitParts (splitter : Option MsgSplitter) (chunk plain : Bytes) :
    List Bytes × Option MsgSplitter :=
  match splitter with
  | none => ([chunk], none)
  | some sp => ((sp.split chunk plain).1, some (sp.split chunk plain).2)

/-- `tcp_to_ws`: the messages it sends and how it ends, as long as the WebSocket takes them. -/
def tcpToWs {ρ : Type*} (R : Source ρ IncompleteRead) (E : AesKeystream) (reader : ρ)
    (ctx : CryptoCtx) (splitter : Option MsgSplitter) : List Bytes × ClientEnd :=
  match _h : R.read 65536 reader with
  | (.error e, _) => ([], .raised e)
  | (.ok [], _) => (flushTail splitter, .endOfStream)
  | (.ok (b :: bs), reader') =>
      let plain := (ctx.cltDec.update E (b :: bs)).1
      let (chunk, ctx') := ctx.up E (b :: bs)
      let (parts, splitter') := splitParts splitter chunk plain
      let (sent, ending) := tcpToWs R E reader' ctx' splitter'
      (parts ++ sent, ending)
termination_by R.left reader
decreasing_by exact R.left_lt _h (List.cons_ne_nil b bs)

/-! ## The splitter loses nothing -/

/-- A splitter that has given up holds nothing back. -/
def MsgSplitter.Sound (sp : MsgSplitter) : Prop := sp.disabled = true → sp.cipherBuf = []

/-- The parts of the loop and what it leaves are the buffer; when it gives up it leaves nothing. -/
lemma splitLoop_flatten (proto : ℕ) (cipher plain : Bytes) (offset : ℕ) :
    (splitLoop proto cipher plain offset).1.flatten
        ++ cipher.drop (splitLoop proto cipher plain offset).2.1 = cipher.drop offset ∧
      ((splitLoop proto cipher plain offset).2.2 = true →
        (splitLoop proto cipher plain offset).2.1 = cipher.length) := by
  induction offset using splitLoop.induct proto cipher plain with
  | case1 offset hlt hnext =>
      rw [splitLoop, if_pos hlt, hnext]
      exact ⟨rfl, by rintro ⟨⟩⟩
  | case2 offset hlt hnext =>
      rw [splitLoop, if_pos hlt, hnext]
      simp
  | case3 offset hlt n hnext parts stop disable hloop ih =>
      obtain ⟨heq, hdone⟩ := ih
      have hslice : slice cipher offset (offset + (n + 1)) = (cipher.drop offset).take (n + 1) := by
        rw [slice, List.drop_take, Nat.add_sub_cancel_left]
      rw [splitLoop, if_pos hlt, hnext]
      refine ⟨?_, hdone⟩
      simp only [List.flatten_cons, List.append_assoc, heq, hslice]
      rw [← List.drop_drop, List.take_append_drop]
  | case4 offset hge =>
      rw [splitLoop, if_neg hge]
      exact ⟨rfl, by rintro ⟨⟩⟩

/-- **One call.**  What was held back and the chunk are the parts and what is held back now. -/
lemma split_sound {sp : MsgSplitter} (h : sp.Sound) (chunk plain : Bytes) :
    (sp.split chunk plain).1.flatten ++ (sp.split chunk plain).2.cipherBuf
        = sp.cipherBuf ++ chunk ∧ (sp.split chunk plain).2.Sound := by
  rw [MsgSplitter.split]
  by_cases hchunk : chunk = []
  · rw [if_pos hchunk, hchunk]
    exact ⟨(List.append_nil _).symm, h⟩
  rw [if_neg hchunk]
  by_cases hdis : sp.disabled = true
  · rw [if_pos hdis]
    refine ⟨?_, h⟩
    simp [h hdis]
  · rw [if_neg hdis]
    obtain ⟨heq, hdone⟩ :=
      splitLoop_flatten sp.proto (sp.cipherBuf ++ chunk) (sp.plainBuf ++ plain) 0
    refine ⟨heq, fun hd => ?_⟩
    exact List.drop_of_length_le (hdone hd).ge

/-- What a splitter, if there is one, holds back. -/
def heldBack : Option MsgSplitter → Bytes
  | none => []
  | some sp => sp.cipherBuf

lemma flatten_flushTail (splitter : Option MsgSplitter) :
    (flushTail splitter).flatten = heldBack splitter := by
  cases splitter with
  | none => rfl
  | some sp =>
      rw [flushTail, heldBack, MsgSplitter.flush]
      split_ifs with hnil
      · exact hnil.symm
      · simp

/-- A chunk through the splitter, if there is one. -/
lemma splitParts_sound {splitter : Option MsgSplitter} (h : ∀ sp ∈ splitter, sp.Sound)
    (chunk plain : Bytes) :
    (splitParts splitter chunk plain).1.flatten ++ heldBack (splitParts splitter chunk plain).2
        = heldBack splitter ++ chunk ∧
      ∀ sp ∈ (splitParts splitter chunk plain).2, sp.Sound := by
  cases splitter with
  | none => exact ⟨by simp [splitParts, heldBack], nofun⟩
  | some sp =>
      obtain ⟨heq, hsound⟩ := split_sound (h sp rfl) chunk plain
      refine ⟨heq, fun sp' hsp' => ?_⟩
      obtain rfl := Option.some.inj hsp'
      exact hsound

/-! ## The loop -/

section Loop

variable {ρ : Type*} {R : Source ρ IncompleteRead} {E : AesKeystream} {s s' : ρ}
  {ctx : CryptoCtx} {splitter : Option MsgSplitter}

lemma tcpToWs_of_nil (h : R.read 65536 s = (.ok [], s')) :
    tcpToWs R E s ctx splitter = (flushTail splitter, .endOfStream) := by
  rw [tcpToWs]
  split <;> rename_i h' <;> rw [h] at h' <;> cases h'

lemma tcpToWs_of_data {data : Bytes} (hne : data ≠ []) (h : R.read 65536 s = (.ok data, s')) :
    tcpToWs R E s ctx splitter =
      let parts := splitParts splitter (ctx.up E data).1 (ctx.cltDec.update E data).1
      let rest := tcpToWs R E s' (ctx.up E data).2 parts.2
      (parts.1 ++ rest.1, rest.2) := by
  rw [tcpToWs]
  split <;> rename_i h' <;> rw [h] at h' <;> cases h'
  · exact absurd rfl hne
  · rfl

end Loop

/-- **Every octet is sent.**  Of a source that reads as `x`, the relay sends the re-encryption of
`x` behind what the splitter already holds, and ends as at the end of a stream. -/
theorem tcpToWs_of_readsAs {ρ : Type*} {R : Source ρ IncompleteRead} (E : AesKeystream) {s : ρ}
    {x : Bytes} (h : R.ReadsAs s x) (ctx : CryptoCtx) {splitter : Option MsgSplitter}
    (hsound : ∀ sp ∈ splitter, sp.Sound) :
    (tcpToWs R E s ctx splitter).1.flatten
        = heldBack splitter ++ ctx.tgEnc.peek E (ctx.cltDec.peek E x) ∧
      (tcpToWs R E s ctx splitter).2 = .endOfStream := by
  induction hk : x.length using Nat.strong_induction_on generalizing s x ctx splitter with
  | _ k ih =>
    subst hk
    obtain ⟨data, s', y, hread, -, rfl, hend, hnext⟩ := h.read (show 1 ≤ 65536 by decide)
    by_cases hnil : data = []
    · obtain hy := hend.mp hnil
      subst hnil
      rw [tcpToWs_of_nil hread, hy]
      exact ⟨by simp [flatten_flushTail], rfl⟩
    · obtain ⟨hparts, hsound'⟩ :=
        splitParts_sound hsound (ctx.up E data).1 (ctx.cltDec.update E data).1
      have hpos := List.length_pos_iff.mpr hnil
      obtain ⟨hrest, hlast⟩ := ih y.length (by rw [List.length_append]; omega) (hnext hnil)
        (ctx.up E data).2 hsound' rfl
      rw [tcpToWs_of_data hnil hread]
      refine ⟨?_, hlast⟩
      simp only [List.flatten_append, hrest]
      rw [← List.append_assoc, hparts, List.append_assoc, Cipher.peek_append, Cipher.peek_append]
      rfl

end TgWsProxy
