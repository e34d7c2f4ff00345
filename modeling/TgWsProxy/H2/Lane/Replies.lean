import TgWsProxy.H2.Lane.Runs

/-!
# What the client reads

The replies of a lane on their way to the native client: what `_post` returns and what the codes of
transport errors are packed into, framed by `_encode_reply` one after the other, and taken apart by
the client's rule.

* `clientFrame`, `clientParse` — the rule: where a frame ends, and what its body is.
* `Returnable`, `Forwardable` — what there is to frame.
* `Reaches.bounded` — while a request is posting, what has been received fits one packet.
* **`replies_recovered`** — every reply is framed, and the client reads the same replies.
-/

namespace TgWsProxy

open Wire

/-! ## The client's rule -/

/-- The first `n` octets, and what follows them. -/
def takeOctets (n : ℕ) (s : Bytes) : Option (Bytes × Bytes) :=
  if n ≤ s.length then some (s.take n, s.drop n) else none

/-- What a header announces, and what follows the header: words in one octet or in three behind
`0x7f`, or octets in four.  A bit that marks a quick acknowledgement is set in no header. -/
def clientHeader (tag s : Bytes) : Option (ℕ × Bytes) :=
  if tag = protoTagAbridged then
    match s with
    | [] => none
    | b :: t =>
        if b.toNat < 0x7f then some (b.toNat * 4, t)
        else if b.toNat = 0x7f then (takeOctets 3 t).map fun p => (leNat p.1 * 4, p.2)
        else none
  else
    (takeOctets 4 s).bind fun p => if leNat p.1 < 2 ^ 31 then some (leNat p.1, p.2) else none

/-- The first frame: its body, the padding behind it, and what follows.  Under the padded tag, the
octets beyond the last whole word are padding. -/
def clientFrame (tag s : Bytes) : Option (Bytes × Bytes × Bytes) :=
  (clientHeader tag s).bind fun header =>
    (takeOctets header.1 header.2).map fun p =>
      let padding := if tag = protoTagSecure then p.1.length % 4 else 0
      (p.1.take (p.1.length - padding), p.1.drop (p.1.length - padding), p.2)

/-- All frames: bodies and paddings, as long as the stream consists of whole frames. -/
def clientParse (tag s : Bytes) : Option (List (Bytes × Bytes)) :=
  if s = [] then some []
  else
    match clientFrame tag s with
    | none => none
    | some (body, padding, rest) =>
        if rest.length < s.length then (clientParse tag rest).map ((body, padding) :: ·) else none
termination_by s.length

/-! ## Frames -/

lemma takeOctets_append {n : ℕ} {a : Bytes} (h : a.length = n) (rest : Bytes) :
    takeOctets n (a ++ rest) = some (a, rest) := by
  subst h
  simp [takeOctets]

/-- The padding a frame carries. -/
def sentPadding (tag : Bytes) (padding : Padding) : Bytes :=
  if tag = protoTagSecure then padding.1 else []

lemma clientHeader_cons (b : UInt8) (t : Bytes) :
    clientHeader protoTagAbridged (b :: t) =
      if b.toNat < 0x7f then some (b.toNat * 4, t)
      else if b.toNat = 0x7f then (takeOctets 3 t).map fun p => (leNat p.1 * 4, p.2)
      else none :=
  if_pos rfl

lemma clientHeader_of_ne {tag : Bytes} (htag : tag ≠ protoTagAbridged) (s : Bytes) :
    clientHeader tag s =
      (takeOctets 4 s).bind fun p => if leNat p.1 < 2 ^ 31 then some (leNat p.1, p.2) else none :=
  if_neg htag

section Frame

variable {body tag frame : Bytes} {padding : Padding}

lemma frame_of_abridged (h : encodeReply body protoTagAbridged padding = .ok frame) :
    frame = (if body.length / 4 < 0x7f then [UInt8.ofNat (body.length / 4)]
      else 0x7f :: leBytes 3 (body.length / 4)) ++ body := by
  rw [encodeReply] at h
  by_cases hbad : body = [] ∨ body.length % 4 ≠ 0 ∨ maxPacket < body.length
  · rw [if_pos hbad] at h
    cases h
  · rw [if_neg hbad, if_pos rfl] at h
    exact (Except.ok.inj h).symm

lemma frame_of_ne (htag : tag ≠ protoTagAbridged) (h : encodeReply body tag padding = .ok frame) :
    frame = leBytes 4 (body.length + (sentPadding tag padding).length)
      ++ (body ++ sentPadding tag padding) := by
  rw [encodeReply] at h
  by_cases hbad : body = [] ∨ body.length % 4 ≠ 0 ∨ maxPacket < body.length
  · rw [if_pos hbad] at h
    cases h
  · rw [if_neg hbad, if_neg htag] at h
    rw [← List.append_assoc]
    exact (Except.ok.inj h).symm

lemma length_sentPadding (tag : Bytes) (padding : Padding) :
    (sentPadding tag padding).length < 4 := by
  rw [sentPadding]
  split_ifs
  · exact padding.2
  · decide

/-- The header of an abridged frame: one octet below `0x7f` words, four from there on. -/
lemma clientHeader_abridged (h : encodeReply body protoTagAbridged padding = .ok frame)
    (rest : Bytes) :
    clientHeader protoTagAbridged (frame ++ rest) = some (body.length, body ++ rest) := by
  obtain ⟨-, haligned, hmax⟩ := (encodeReply_ok protoTagAbridged padding).mp ⟨frame, h⟩
  have hmod : body.length / 4 * 4 = body.length :=
    Nat.div_mul_cancel (Nat.dvd_of_mod_eq_zero haligned)
  rw [maxPacket] at hmax
  rw [frame_of_abridged h]
  by_cases hshort : body.length / 4 < 0x7f
  · have hbyte : (UInt8.ofNat (body.length / 4)).toNat = body.length / 4 := by
      rw [UInt8.toNat_ofNat']
      omega
    rw [if_pos hshort, List.cons_append, List.nil_append, List.cons_append, clientHeader_cons,
      hbyte, if_pos hshort, hmod]
  · have hwords : leNat (leBytes 3 (body.length / 4)) = body.length / 4 :=
      leNat_leBytes_of_lt (by omega)
    rw [if_neg hshort, List.cons_append, List.cons_append, List.append_assoc, clientHeader_cons,
      if_neg (by decide), if_pos (by decide), takeOctets_append (length_leBytes _ _),
      Option.map_some, hwords, hmod]

/-- The header of the other frames: the octets of the body and the padding. -/
lemma clientHeader_other (htag : tag ≠ protoTagAbridged)
    (h : encodeReply body tag padding = .ok frame) (rest : Bytes) :
    clientHeader tag (frame ++ rest) = some (body.length + (sentPadding tag padding).length,
      body ++ sentPadding tag padding ++ rest) := by
  obtain ⟨-, -, hmax⟩ := (encodeReply_ok tag padding).mp ⟨frame, h⟩
  have hpad := length_sentPadding tag padding
  rw [maxPacket] at hmax
  have hlen : leNat (leBytes 4 (body.length + (sentPadding tag padding).length))
      = body.length + (sentPadding tag padding).length := leNat_leBytes_of_lt (by omega)
  rw [frame_of_ne htag h, List.append_assoc, clientHeader_of_ne htag,
    takeOctets_append (length_leBytes _ _), Option.bind_some, hlen, if_pos (by omega)]

/-- **One frame.**  The client takes off the frame what was framed. -/
lemma clientFrame_encodeReply (h : encodeReply body tag padding = .ok frame) (rest : Bytes) :
    clientFrame tag (frame ++ rest) = some (body, sentPadding tag padding, rest) := by
  obtain ⟨-, haligned, -⟩ := (encodeReply_ok tag padding).mp ⟨frame, h⟩
  have hpad := length_sentPadding tag padding
  have hheader : clientHeader tag (frame ++ rest) = some
      ((body ++ sentPadding tag padding).length, body ++ sentPadding tag padding ++ rest) := by
    by_cases htag : tag = protoTagAbridged
    · subst htag
      have hnone : sentPadding protoTagAbridged padding = [] := if_neg (by decide)
      rw [clientHeader_abridged h, hnone, List.append_nil]
    · rw [clientHeader_other htag h, List.length_append]
  have hcut : (body ++ sentPadding tag padding).length -
      (if tag = protoTagSecure then (body ++ sentPadding tag padding).length % 4 else 0)
        = body.length := by
    rw [List.length_append]
    split_ifs with htag
    · omega
    · have hnone : sentPadding tag padding = [] := if_neg htag
      rw [hnone]
      rfl
  rw [clientFrame, hheader, Option.bind_some, takeOctets_append rfl, Option.map_some]
  simp only [hcut, List.take_left, List.drop_left]

lemma encodeReply_ne_nil (h : encodeReply body tag padding = .ok frame) : frame ≠ [] := by
  obtain ⟨hne, -⟩ := (encodeReply_ok tag padding).mp ⟨frame, h⟩
  by_cases htag : tag = protoTagAbridged
  · subst htag
    simp [frame_of_abridged h, hne]
  · simp [frame_of_ne htag h, hne]

end Frame

/-- **All frames.**  What is framed in a row is read in a row. -/
lemma clientParse_encodeReply {tag : Bytes} : ∀ {rs : List (Bytes × Padding)}
    {frames : List Bytes}, rs.map (fun r => encodeReply r.1 tag r.2) = frames.map .ok →
      clientParse tag frames.flatten = some (rs.map fun r => (r.1, sentPadding tag r.2))
  | [], [], _ => by
      rw [List.flatten_nil, clientParse, if_pos rfl]
      rfl
  | r :: rs, frame :: frames, h => by
      obtain ⟨hframe, hframes⟩ := List.cons.inj h
      have hne := encodeReply_ne_nil hframe
      have hpos := List.length_pos_iff.mpr hne
      rw [List.flatten_cons, clientParse, if_neg (by simp [hne]),
        clientFrame_encodeReply hframe]
      simp only
      rw [if_pos (by rw [List.length_append]; omega), clientParse_encodeReply hframes]
      rfl

/-! ## What there is to frame -/

/-- `_post` can return the body: a request of some run of a lane is at its end with it. -/
def Returnable (body : Bytes) : Prop :=
  ∃ E s t c info p, Reaches E s ∧ s.req t = some (c, info, .posting p) ∧
    p.finish = .returned body

/-- `_post` can raise the code as a transport error, at the head of a response or at its end. -/
def Forwardable (code : ℤ) : Prop :=
  (∃ head : ResponseHead, head.check = some (.transport code)) ∨
    ∃ p : Post, p.finish = .raised (.transport code)

/-- While a request of the channel is posting, what it has received fits one packet. -/
def Bounded (s : Sys) (c : ℕ) : Prop :=
  ∀ u info p, s.req u = some (c, info, .posting p) → p.content.length ≤ maxPacket

/-- A step that leaves all requests but `u` alone. -/
lemma Bounded.only {s s' : Sys} {c u : ℕ} (h : Bounded s c) (honly : Only c (some u) s s')
    (hu : ∀ info p, s'.req u = some (c, info, .posting p) → p.content.length ≤ maxPacket) :
    Bounded s' c := by
  intro v info p hv
  by_cases hvu : v = u
  · subst hvu
    exact hu info p hv
  · rw [honly.req v (by simpa using hvu)] at hv
    exact h v info p hv

lemma Bounded.none {s s' : Sys} {c : ℕ} (h : Bounded s c) (honly : Only c none s s') :
    Bounded s' c := by
  intro v info p hv
  rw [honly.req v (by simp)] at hv
  exact h v info p hv

/-- A request that has moved to a known place. -/
lemma Bounded.move {s s' : Sys} {c u : ℕ} {info : Request} {pc : RequestPc} (h : Bounded s c)
    (honly : Only c (some u) s s') (hreq : s'.req u = some (c, info, pc))
    (hpc : ∀ p, pc = .posting p → p.content.length ≤ maxPacket) : Bounded s' c := by
  refine h.only honly fun info' p hu => ?_
  rw [hreq] at hu
  simp only [Option.some.injEq, Prod.mk.injEq] at hu
  exact hpc p hu.2.2

theorem Reaches.bounded {E : AesKeystream} {s : Sys} (h : Reaches E s) (c : ℕ) : Bounded s c := by
  refine h.channel (P := Bounded) ?_ ?_ ?_ c
  · rintro _ c ⟨clock, debug, -, rfl⟩ u info p hu
    cases hu
  · intro s s' c hst hb u info p hu
    exact hb u info p ((hst.req u info _).mp hu)
  · intro s e s' c hr hs hb hmv
    cases hmv with
    | opened _ _ _ _ honly => exact hb.none honly
    | bridged _ _ _ _ _ _ honly => exact hb.none honly
    | native _ _ _ _ _ _ _ _ _ _ hreq' _ _ _ honly => exact hb.move honly hreq' nofun
    | replay _ _ _ _ _ _ _ _ _ _ _ _ hreq' _ _ _ honly => exact hb.move honly hreq' nofun
    | advance u info pc pc' hcalm hreq hreq' _ _ _ honly =>
        refine hb.move honly hreq' fun p hp => ?_
        cases hcalm with
        | post => cases hp; exact Nat.zero_le _
        | never => cases hp
        | read q data hopen hmax =>
            cases hp
            rw [List.length_append]
            exact hmax
        | start q q' hrq hrq' huq hcq =>
            cases hp
            rw [hcq]
            exact hb u info q hreq
        | notify => cases hp
        | leak => cases hp
        | finish => cases hp
    | uploaded u info p hreq _ hreq' _ _ _ honly =>
        refine hb.move honly hreq' fun q hq => ?_
        cases hq
        exact hb u info p hreq
    | received u info p p' hreq _ hreq' _ _ hcontent _ _ _ honly =>
        refine hb.move honly hreq' fun q hq => ?_
        cases hq
        rw [hcontent]
        exact hb u info p hreq
    | ended u info p e receiving ch hreq he hreceiving hbefore hafter hlog hnative honly =>
        split at hafter
        · exact hb.move honly hafter.2 nofun
        · exact hb.move honly hafter.2 nofun
    | closing _ _ _ _ _ honly => exact hb.none honly
    | swept _ _ _ _ _ _ _ _ _ _ _ _ _ _ _ _ honly => exact hb.none honly
    | cleared _ _ _ _ _ _ _ honly => exact hb.none honly
    | rotated _ _ _ _ _ honly => exact hb.none honly
    | dropped _ _ _ _ _ _ _ honly => exact hb.none honly
    | wrote _ _ _ _ _ _ _ _ _ _ _ _ _ _ honly => exact hb.none honly
    | drained _ _ _ _ _ _ honly => exact hb.none honly
    | wroteError _ _ _ _ _ _ _ _ _ _ _ _ _ _ _ _ honly => exact hb.none honly

/-- What `_post` returns, unless it is empty, can be framed. -/
lemma Returnable.encodable {body : Bytes} (h : Returnable body) (hne : body ≠ []) :
    Encodable body := by
  obtain ⟨E, s, t, c, info, p, hreach, hreq, hfinish⟩ := h
  have hle := hreach.bounded c t info p hreq
  rw [Post.finish] at hfinish
  split_ifs at hfinish with h₁ h₂ h₃
  obtain rfl := PostEnd.returned.inj hfinish
  exact ⟨hne, not_not.mp h₂, hle⟩

/-- At the head of a response, four status codes are forwarded. -/
lemma check_eq_transport {head : ResponseHead} {code : ℤ}
    (h : head.check = some (.transport code)) : code ∈ [-403, -404, -429, -444] := by
  rw [ResponseHead.check] at h
  split_ifs at h with h₁ h₂
  · cases h
  · obtain rfl := Failure.transport.inj (Option.some.inj h)
    simp only [List.mem_cons, List.not_mem_nil, or_false] at h₂ ⊢
    omega
  · cases h
  · cases h

/-- At its end, the negative word it consists of. -/
lemma finish_eq_transport {p : Post} {code : ℤ} (h : p.finish = .raised (.transport code)) :
    -2 ^ 31 ≤ code ∧ code < 0 := by
  rw [Post.finish] at h
  split_ifs at h with h₁ h₂ h₃
  · cases h
  · cases h
  · obtain rfl := Failure.transport.inj (PostEnd.raised.inj h)
    refine ⟨?_, h₃.2⟩
    rw [leInt, h₃.1]
    split_ifs <;> omega

/-- A negative word, as the body of a response. -/
lemma finish_word {code : ℤ} (h : -2 ^ 31 ≤ code ∧ code < 0) :
    Post.finish { content := leBytes 4 (code % 256 ^ 4).toNat } = .raised (.transport code) := by
  have hword : leNat (leBytes 4 (code % 256 ^ 4).toNat) = (code % 256 ^ 4).toNat :=
    leNat_leBytes_of_lt (by omega)
  have hcode : leInt (leBytes 4 (code % 256 ^ 4).toNat) = code := by
    rw [leInt, hword, length_leBytes, if_neg (by omega)]
    omega
  rw [Post.finish, if_neg (fun hdeclared => hdeclared.1 rfl), if_neg (by simp),
    if_pos ⟨length_leBytes _ _, by rw [hcode]; exact h.2⟩, hcode]

/-- The codes that can be raised. -/
lemma forwardable_iff (code : ℤ) :
    Forwardable code ↔ code ∈ [-403, -404, -429, -444] ∨ -2 ^ 31 ≤ code ∧ code < 0 := by
  constructor
  · rintro (⟨head, h⟩ | ⟨p, h⟩)
    · exact .inl (check_eq_transport h)
    · exact .inr (finish_eq_transport h)
  · intro h
    refine .inr ⟨_, finish_word ?_⟩
    rcases h with hmem | hrange
    · simp only [List.mem_cons, List.not_mem_nil, or_false] at hmem
      omega
    · exact hrange

/-- A code is packed into one word. -/
lemma Forwardable.packed {code : ℤ} (h : Forwardable code) :
    ∃ packed, leIntBytes 4 code = some packed ∧ Encodable packed := by
  have hrange : -2 ^ 31 ≤ code ∧ code < 0 := by
    rcases (forwardable_iff code).mp h with hmem | hrange
    · simp only [List.mem_cons, List.not_mem_nil, or_false] at hmem
      omega
    · exact hrange
  have hpack : leIntBytes 4 code = some (leBytes 4 (code % 256 ^ 4).toNat) := by
    rw [leIntBytes, if_pos (by omega)]
  refine ⟨_, hpack, List.ne_nil_of_length_pos (by simp), by simp, by simp [maxPacket]⟩

/-- **Replies.**  Whatever `_post` returns that is not empty, and the packed code of every transport
error, is framed under every tag and with every padding; and of any frames in a row the client reads
the same bodies in a row, with up to three octets of padding each, and under the padded tag only. -/
theorem replies_recovered (tag : Bytes) (rs : List (Bytes × Padding))
    (hrs : ∀ r ∈ rs, Returnable r.1 ∧ r.1 ≠ [] ∨
      ∃ code, Forwardable code ∧ leIntBytes 4 code = some r.1) :
    (∀ code, Forwardable code ↔ code ∈ [-403, -404, -429, -444] ∨ -2 ^ 31 ≤ code ∧ code < 0) ∧
    (∀ code, Forwardable code → ∃ packed, leIntBytes 4 code = some packed) ∧
    ∃ frames : List Bytes, rs.map (fun r => encodeReply r.1 tag r.2) = frames.map .ok ∧
      clientParse tag frames.flatten = some (rs.map fun r => (r.1, sentPadding tag r.2)) := by
  refine ⟨forwardable_iff, fun code hcode => ?_, ?_⟩
  · obtain ⟨packed, hpacked, -⟩ := hcode.packed
    exact ⟨packed, hpacked⟩
  · have hframes : ∃ frames : List Bytes,
        rs.map (fun r => encodeReply r.1 tag r.2) = frames.map .ok := by
      induction rs with
      | nil => exact ⟨[], rfl⟩
      | cons r rs ih =>
          obtain ⟨frames, hframes⟩ := ih fun r hr => hrs r (List.mem_cons_of_mem _ hr)
          have hencodable : Encodable r.1 := by
            rcases hrs r List.mem_cons_self with ⟨hret, hne⟩ | ⟨code, hcode, hpacked⟩
            · exact hret.encodable hne
            · obtain ⟨packed, hpacked', henc⟩ := hcode.packed
              rw [hpacked] at hpacked'
              exact Option.some.inj hpacked' ▸ henc
          obtain ⟨frame, hframe⟩ := (encodeReply_ok tag r.2).mpr hencodable
          exact ⟨frame :: frames, by rw [List.map_cons, List.map_cons, hframe, hframes]⟩
    obtain ⟨frames, hframes⟩ := hframes
    exact ⟨frames, hframes, clientParse_encodeReply hframes⟩

/-- A lane on which one packet has been sent, and answered with eight octets. -/
def answered : List Event :=
  [Event.openChannel, .send 0 (List.replicate 24 1)] ++ List.replicate 7 (Event.run 0 .resume) ++
    [Event.run 1 .resume, .run 1 (.opened {}), .run 1 (.chunk [1, 2, 3, 4, 5, 6, 7, 8])]

/-- That answer and an error, padded by three octets and by none. -/
theorem replies_recovered_sample :
    ∃ frames : List Bytes,
      [encodeReply [1, 2, 3, 4, 5, 6, 7, 8] protoTagSecure ⟨[9, 9, 9], by decide⟩,
        encodeReply [0x6c, 0xfe, 0xff, 0xff] protoTagSecure ⟨[], by decide⟩] = frames.map .ok ∧
      clientParse protoTagSecure frames.flatten =
        some [([1, 2, 3, 4, 5, 6, 7, 8], [9, 9, 9]), ([0x6c, 0xfe, 0xff, 0xff], [])] := by
  let E : AesKeystream := fun _ _ _ => 0
  have hrun : (exec (step E) answered (Sys.start 1 false)).map (fun s => s.req 1) =
      some (some (0, ⟨List.replicate 24 1, false, some 1⟩, .posting
        { receiving := true, opened := true, content := [1, 2, 3, 4, 5, 6, 7, 8] })) := by
    decide +kernel
  obtain ⟨s, hs, hreq⟩ := Option.map_eq_some_iff.mp hrun
  have hreach : Reaches E s := reachable_of_exec (.start ⟨1, false, one_pos, rfl⟩) hs
  have hreturn : Returnable [1, 2, 3, 4, 5, 6, 7, 8] :=
    ⟨E, s, 1, 0, _, _, hreach, hreq, by decide⟩
  have hcode : Forwardable (-404) := (forwardable_iff _).mpr (.inl (by decide))
  have h := replies_recovered protoTagSecure
    [([1, 2, 3, 4, 5, 6, 7, 8], ⟨[9, 9, 9], by decide⟩),
      ([0x6c, 0xfe, 0xff, 0xff], ⟨[], by decide⟩)] ?_
  · exact h.2.2
  · intro r hr
    rcases List.mem_cons.mp hr with rfl | hr
    · exact .inl ⟨hreturn, by decide⟩
    · obtain rfl := List.mem_singleton.mp hr
      exact .inr ⟨-404, hcode, by decide⟩

end TgWsProxy
