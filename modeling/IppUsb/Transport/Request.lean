import IppUsb.Transport.Shutdown

/-!
# Shaping the outbound request

Before it asks for a connection, `RoundTripWithSession` clones the request, deletes `Expect`,
forces `Connection: close`, adds a `User-Agent` if there is none, wraps the body in a
`usbRequestBodyWrapper`, and shapes the body by its declared length: up to 0 unchanged, below
16384 bytes prefetched with `io.CopyN` into a buffer, from 16384 on sent chunked
(`ContentLength = -1`).

The request body is what its `Read` returns call after call: chunks of data, then an error
(`io.EOF` or another).  A body that returns data together with its error is, to
`bytes.Buffer.ReadFrom`, the same as one returning the data and then the error.  A server request always has a body (`http.NoBody` when empty), so the
`outreq.Body != nil` test always holds.

* `Header`, `Header.del`, `Header.set`  `http.Header` with canonical keys, each once;
* `readFrom`, `copyN`       `io.CopyN(buf, wrap, n)`: `bytes.Buffer.ReadFrom` over
                            `io.LimitReader(wrap, n)` over `usbRequestBodyWrapper.Read`;
* `readFrom_eq`             it copies the first `n` bytes of the body, or all of them when the
                            body ends before: the wrapper turns every error into EOF;
* `roundTripWithSession`    `RoundTripWithSession` up to `outreq.Write(conn)`;
* `outreq_shape`            every request written has no `Expect`, `Connection: close`, a
                            `User-Agent`, and the shaped body; a short small body is an error
                            returned before `usbConnGet`;
* `roundTripSession`, `sessions`  the session number `RoundTrip` takes from the `int32`
                            counter `httpSessionID`, over a run of calls;
* `session_negative_after_wrap`  once the counter has wrapped to `-2^31`, the session number is
                            `-648`: Go's `%` keeps the sign of a negative counter.
-/

namespace IppUsb

/-! ## `http.Header` -/

/-- an `http.Header`: a map from canonical keys to values -/
structure Header where
  entries : List (String × List String)
  nodup : (entries.map Prod.fst).Nodup

/-- `h[k]` -/
def Header.get? (h : Header) (k : String) : Option (List String) :=
  (h.entries.find? (·.1 == k)).map (·.2)

theorem nodup_filter_keys (l : List (String × List String)) (k : String)
    (h : (l.map Prod.fst).Nodup) : ((l.filter (·.1 != k)).map Prod.fst).Nodup :=
  (List.Sublist.map Prod.fst (List.filter_sublist l)).nodup h

/-- `h.Del(k)`, for a canonical `k` -/
def Header.del (h : Header) (k : String) : Header :=
  ⟨h.entries.filter (·.1 != k), nodup_filter_keys _ k h.nodup⟩

/-- `h.Set(k, v)` and `h[k] = vs`, for a canonical `k` -/
def Header.set (h : Header) (k : String) (vs : List String) : Header :=
  ⟨h.entries.filter (·.1 != k) ++ [(k, vs)], by
    rw [List.map_append, List.nodup_append]
    refine ⟨nodup_filter_keys _ k h.nodup, by simp, ?_⟩
    intro a ha hb
    simp only [List.mem_map, List.mem_filter, bne_iff_ne, ne_eq] at ha
    simp only [List.map_cons, List.map_nil, List.mem_singleton] at hb
    obtain ⟨p, ⟨-, hp⟩, rfl⟩ := ha
    exact hp hb⟩

theorem find?_filter_ne (l : List (String × List String)) (k k' : String) (h : k' ≠ k) :
    (l.filter (·.1 != k)).find? (·.1 == k') = l.find? (·.1 == k') := by
  induction l with
  | nil => rfl
  | cons p l ih =>
    by_cases hp : p.1 = k
    · have h1 : (p.1 != k) = false := by simp [hp]
      have h2 : (p.1 == k') = false := by simpa [hp] using Ne.symm h
      simp only [List.filter_cons, h1, Bool.false_eq_true, if_false, ih, List.find?_cons, h2]
    · have h' : (p.1 != k) = true := by simpa using hp
      simp only [List.filter_cons, h', if_true, List.find?_cons, ih]

@[simp] theorem Header.get?_del_self (h : Header) (k : String) : (h.del k).get? k = none := by
  simp [Header.get?, Header.del, List.find?_eq_none]

@[simp] theorem Header.get?_del_ne (h : Header) {k k' : String} (hk : k' ≠ k) :
    (h.del k).get? k' = h.get? k' := by
  simp only [Header.get?, Header.del, find?_filter_ne _ _ _ hk]

@[simp] theorem Header.get?_set_self (h : Header) (k : String) (vs : List String) :
    (h.set k vs).get? k = some vs := by
  have : (h.entries.filter (·.1 != k)).find? (·.1 == k) = none := by
    simp [List.find?_eq_none]
  simp [Header.get?, Header.set, List.find?_append, this]

@[simp] theorem Header.get?_set_ne (h : Header) {k k' : String} (vs : List String)
    (hk : k' ≠ k) : (h.set k vs).get? k' = h.get? k' := by
  simp only [Header.get?, Header.set, List.find?_append, find?_filter_ne _ _ _ hk]
  cases h.entries.find? (·.1 == k') <;> simp [Ne.symm hk]

/-! ## the body and `io.CopyN` -/

/-- a request body: the chunks its `Read` returns, then its error (`io.EOF` or another) -/
structure ReqBody where
  chunks : List (List UInt8)
  err : GoError

/-- `io.EOF` -/
def eof : GoError := ⟨"EOF"⟩

/-- `rq.Body.Read(p)` with `len(p) = req`: at most `req` bytes of the current chunk (what is
left of it comes next), or `(0, err)` once the chunks are used up -/
def ReqBody.read (b : ReqBody) (req : Nat) : (List UInt8 × Option GoError) × ReqBody :=
  match b.chunks with
  | [] => (([], some b.err), b)
  | c :: cs => ((c.take req, none), ⟨if req < c.length then c.drop req :: cs else cs, b.err⟩)

/-- `usbRequestBodyWrapper`: the bytes counted, and whether EOF or an error was seen -/
structure UsbRequestBodyWrapper where
  count : Nat
  drained : Bool

/-- `usbRequestBodyWrapper.Read` on what `wrap.body.Read` returned: any error, EOF included,
becomes `io.EOF` -/
def UsbRequestBodyWrapper.read (w : UsbRequestBodyWrapper) (r : List UInt8 × Option GoError) :
    UsbRequestBodyWrapper × (List UInt8 × Option GoError) :=
  match r.2 with
  | none => (⟨w.count + r.1.length, w.drained⟩, r)
  | some _ => (⟨w.count + r.1.length, true⟩, (r.1, some eof))

/-- one read of `io.LimitReader(wrap, n)` into `512 + room i` bytes of room, `n > 0`: what
the wrapper returns, and the wrapper and body after it -/
def limitedRead (room : Nat → Nat) (i : Nat) (w : UsbRequestBodyWrapper) (b : ReqBody)
    (n : Nat) : (List UInt8 × Option GoError) × UsbRequestBodyWrapper × ReqBody :=
  ((w.read (b.read (min (512 + room i) n)).1).2, (w.read (b.read (min (512 + room i) n)).1).1,
    (b.read (min (512 + room i) n)).2)

theorem limitedRead_progress (room : Nat → Nat) (i : Nat) (w : UsbRequestBodyWrapper)
    (b : ReqBody) {n : Nat} (hn : 0 < n) (h : (limitedRead room i w b n).1.2 = none) :
    (limitedRead room i w b n).1.1.length ≤ n ∧
      n - (limitedRead room i w b n).1.1.length + (limitedRead room i w b n).2.2.chunks.length <
        n + b.chunks.length := by
  obtain ⟨cs, e⟩ := b
  simp only [limitedRead, ReqBody.read, UsbRequestBodyWrapper.read] at *
  cases cs with
  | nil => simp at h
  | cons c cs =>
    simp only [List.length_take, List.length_cons] at *
    refine ⟨by omega, ?_⟩
    split
    · rw [List.length_cons]; omega
    · omega

/-- `bytes.Buffer.ReadFrom(io.LimitReader(wrap, n))`, from its `i`-th read on: the bytes read
and the error returned.  The buffer offers the `i`-th read `512 + room i` bytes (it grows to
keep `MinRead = 512` free); `io.LimitReader` answers EOF once `n` bytes were read.  EOF ends
the loop with nil; another error would be returned. -/
def readFrom (room : Nat → Nat) (i : Nat) (w : UsbRequestBodyWrapper) (b : ReqBody) (n : Nat) :
    List UInt8 × Option GoError :=
  if _hn : n = 0 then ([], none)
  else
    match _he : (limitedRead room i w b n).1.2 with
    | some e => ((limitedRead room i w b n).1.1, if e = eof then none else some e)
    | none =>
      let rest := readFrom room (i + 1) (limitedRead room i w b n).2.1
        (limitedRead room i w b n).2.2 (n - (limitedRead room i w b n).1.1.length)
      ((limitedRead room i w b n).1.1 ++ rest.1, rest.2)
termination_by n + b.chunks.length
decreasing_by exact (limitedRead_progress room i w b (by omega) _he).2

theorem limitedRead_nil (room : Nat → Nat) (i : Nat) (w : UsbRequestBodyWrapper) (e : GoError)
    (n : Nat) : (limitedRead room i w ⟨[], e⟩ n).1 = ([], some eof) := rfl

theorem limitedRead_cons (room : Nat → Nat) (i : Nat) (w : UsbRequestBodyWrapper)
    (c : List UInt8) (cs : List (List UInt8)) (e : GoError) (n : Nat) :
    (limitedRead room i w ⟨c :: cs, e⟩ n).1 = (c.take (min (512 + room i) n), none) ∧
      (limitedRead room i w ⟨c :: cs, e⟩ n).2.2.chunks.flatten =
        c.drop (min (512 + room i) n) ++ cs.flatten := by
  refine ⟨rfl, ?_⟩
  simp only [limitedRead, ReqBody.read]
  split <;> simp_all [List.drop_eq_nil_of_le]

/-- **The prefetch loop.**  `ReadFrom` over the limited, wrapped body returns the first `n`
bytes of the body, or all of them when the body ends (with EOF or any error) before, and no
error: the wrapper has turned the body's error into EOF. -/
theorem readFrom_eq (room : Nat → Nat) (i : Nat) (w : UsbRequestBodyWrapper) (b : ReqBody)
    (n : Nat) : readFrom room i w b n = (b.chunks.flatten.take n, none) := by
  induction i, w, b, n using readFrom.induct room with
  | case1 i w b => simp [readFrom]
  | case2 i w b n hn e he =>
    obtain ⟨_ | ⟨c, cs⟩, err⟩ := b
    · rw [limitedRead_nil] at he; cases he
      rw [readFrom, dif_neg hn]; split <;> simp_all [limitedRead_nil]
    · rw [(limitedRead_cons room i w c cs err n).1] at he; cases he
  | case3 i w b n hn he ih =>
    rw [readFrom, dif_neg hn]
    split
    · simp_all
    · rw [ih]
      obtain ⟨_ | ⟨c, cs⟩, err⟩ := b
      · rw [limitedRead_nil] at he; cases he
      · obtain ⟨h1, h2⟩ := limitedRead_cons room i w c cs err n
        have hle : min (512 + room i) n ≤ n := Nat.min_le_right _ _
        rw [h1, h2]
        generalize min (512 + room i) n = k at hle
        have hk : (c.take k).length ≤ n := by simp; omega
        conv_rhs => rw [List.flatten_cons, ← List.take_append_drop k c, List.append_assoc,
          List.take_append_eq_append_take, List.take_of_length_le hk]

/-- `io.CopyN(buf, wrap, n)`: the bytes copied into `buf`, and `nil` when all `n` came, else the
error of the copy, `io.EOF` when that is nil -/
def copyN (room : Nat → Nat) (b : ReqBody) (n : Nat) : List UInt8 × Option GoError :=
  let r := readFrom room 0 ⟨0, false⟩ b n
  (r.1, if r.1.length = n then none else some (r.2.getD eof))

theorem copyN_eq (room : Nat → Nat) (b : ReqBody) (n : Nat) :
    copyN room b n = (b.chunks.flatten.take n, if n ≤ b.chunks.flatten.length then none else some eof) := by
  simp only [copyN, readFrom_eq, List.length_take, Option.getD_none]
  congr 1
  by_cases h : n ≤ b.chunks.flatten.length <;> simp [h]

/-! ## `RoundTripWithSession` up to the write -/

/-- an `http.Request` as the caller passes it, with the fields `RoundTripWithSession` reads -/
structure Request where
  header : Header
  contentLength : Int
  close : Bool
  body : ReqBody

/-- the body of the outbound request: `&usbRequestBodyWrapper{body: rq.Body}` or
`ioutil.NopCloser(buf)` -/
inductive OutBody
  | wrapper (b : ReqBody)
  | buffer (data : List UInt8)

/-- the outbound request `outreq` -/
structure OutRequest where
  header : Header
  contentLength : Int
  close : Bool
  body : OutBody

/-- the headers of `outreq`: `Expect` deleted, `Connection: close` set, `User-Agent: ipp-usb`
added when the key is missing -/
def outHeader (h : Header) : Header :=
  let h := (h.del "Expect").set "Connection" ["close"]
  if (h.get? "User-Agent").isSome then h else h.set "User-Agent" ["ipp-usb"]

/-- `RoundTripWithSession` from its start to `usbConnGet`: the request it will write, or the
error it returns before asking for a connection -/
def shapeRequest (room : Nat → Nat) (rq : Request) : Except GoError OutRequest :=
  let outreq : OutRequest := ⟨outHeader rq.header, rq.contentLength, true, .wrapper rq.body⟩
  if outreq.contentLength ≤ 0 then .ok outreq
  else if outreq.contentLength < 16384 then
    match copyN room rq.body outreq.contentLength.toNat with
    | (_, some e) => .error e
    | (buf, none) => .ok { outreq with body := .buffer buf }
  else .ok { outreq with contentLength := -1 }

/-- how far `RoundTripWithSession` gets: an error returned before `usbConnGet`, an error of
`usbConnGet`, or `outreq.Write(conn)` on connection `c` -/
inductive RtStart
  | early (e : GoError)
  | noConn (r : GetResult)
  | write (c : Nat) (outreq : OutRequest)

/-- `RoundTripWithSession(session, rq)` up to `outreq.Write(conn)`, when `usbConnGet` would
return `get` -/
def roundTripWithSession (room : Nat → Nat) (rq : Request) (get : GetResult) : RtStart :=
  match shapeRequest room rq with
  | .error e => .early e
  | .ok outreq =>
    match get with
    | .conn c => .write c outreq
    | r => .noConn r

theorem outHeader_spec (h : Header) :
    (outHeader h).get? "Expect" = none ∧ (outHeader h).get? "Connection" = some ["close"] ∧
      (outHeader h).get? "User-Agent" = some ((h.get? "User-Agent").getD ["ipp-usb"]) := by
  have hua : ((h.del "Expect").set "Connection" ["close"]).get? "User-Agent" =
      h.get? "User-Agent" := by simp
  dsimp only [outHeader]
  split <;> rename_i hs <;> rw [hua] at hs
  · obtain ⟨v, hv⟩ := Option.isSome_iff_exists.mp hs
    simp [hv]
  · simp only [Bool.not_eq_true, Option.not_isSome, Option.isNone_iff_eq_none] at hs
    simp [hs]

theorem shapeRequest_spec (room : Nat → Nat) (rq : Request) :
    shapeRequest room rq =
      if rq.contentLength ≤ 0 then .ok ⟨outHeader rq.header, rq.contentLength, true, .wrapper rq.body⟩
      else if rq.contentLength < 16384 then
        if rq.contentLength.toNat ≤ rq.body.chunks.flatten.length then
          .ok ⟨outHeader rq.header, rq.contentLength, true,
            .buffer (rq.body.chunks.flatten.take rq.contentLength.toNat)⟩
        else .error eof
      else .ok ⟨outHeader rq.header, -1, true, .wrapper rq.body⟩ := by
  unfold shapeRequest
  simp only [copyN_eq]
  by_cases h0 : rq.contentLength ≤ 0
  · simp only [h0, if_true]
  by_cases h1 : rq.contentLength < 16384
  · by_cases h2 : rq.contentLength.toNat ≤ rq.body.chunks.flatten.length <;>
      simp only [h0, h1, h2, if_true, if_false]
  · simp only [h0, h1, if_false]

theorem roundTripWithSession_write {room : Nat → Nat} {rq : Request} {get : GetResult}
    {c : Nat} {outreq : OutRequest} :
    roundTripWithSession room rq get = .write c outreq ↔
      get = .conn c ∧ shapeRequest room rq = .ok outreq := by
  unfold roundTripWithSession
  split <;> rename_i h <;> cases get <;> simp [h]

/-- **The outbound request.**  Whatever connection it gets, the request `RoundTripWithSession`
writes has no `Expect` header, has `Connection: close` and `Close` set, and keeps the
caller's `User-Agent` or else carries `ipp-usb`.  A body of unknown or no length is passed
on as it is; a body shorter than 16384 bytes is read in advance and sent from a buffer of exactly
its first `ContentLength` bytes; a longer one goes out chunked.  A small body that ends early
makes the round trip fail before it asks for a connection; with a body of unknown or no length,
a full small body, or a large one, the round trip writes on the connection it gets. -/
theorem outreq_shape (room : Nat → Nat) (rq : Request) :
    (∀ get c outreq, roundTripWithSession room rq get = .write c outreq →
      outreq.header.get? "Expect" = none ∧
      outreq.header.get? "Connection" = some ["close"] ∧ outreq.close = true ∧
      outreq.header.get? "User-Agent" = some ((rq.header.get? "User-Agent").getD ["ipp-usb"]) ∧
      (rq.contentLength ≤ 0 →
        outreq.contentLength = rq.contentLength ∧ outreq.body = .wrapper rq.body) ∧
      (0 < rq.contentLength → rq.contentLength < 16384 →
        outreq.contentLength = rq.contentLength ∧
        outreq.body = .buffer (rq.body.chunks.flatten.take rq.contentLength.toNat) ∧
        (rq.body.chunks.flatten.take rq.contentLength.toNat).length = rq.contentLength) ∧
      (16384 ≤ rq.contentLength → outreq.contentLength = -1 ∧ outreq.body = .wrapper rq.body)) ∧
    (0 < rq.contentLength → rq.contentLength < 16384 →
      rq.body.chunks.flatten.length < rq.contentLength.toNat →
      ∀ get, roundTripWithSession room rq get = .early eof) ∧
    (rq.contentLength.toNat ≤ rq.body.chunks.flatten.length ∨ 16384 ≤ rq.contentLength →
      ∀ c, ∃ outreq, roundTripWithSession room rq (.conn c) = .write c outreq) := by
  obtain ⟨hx, hc, hu⟩ := outHeader_spec rq.header
  refine ⟨fun get c outreq h => ?_, fun h0 h1 hs get => ?_, fun hfull c => ?_⟩
  · obtain ⟨-, h⟩ := roundTripWithSession_write.mp h
    rw [shapeRequest_spec] at h
    by_cases h0 : rq.contentLength ≤ 0
    · cases (Except.ok.inj (if_pos h0 ▸ h))
      exact ⟨hx, hc, rfl, hu, fun _ => ⟨rfl, rfl⟩, fun h => absurd h (by omega),
        fun h => absurd h (by omega)⟩
    rw [if_neg h0] at h
    by_cases h1 : rq.contentLength < 16384
    · by_cases h2 : rq.contentLength.toNat ≤ rq.body.chunks.flatten.length
      · cases (Except.ok.inj (if_pos h2 ▸ if_pos h1 ▸ h))
        exact ⟨hx, hc, rfl, hu, fun h => absurd h h0,
          fun _ _ => ⟨rfl, rfl, by rw [List.length_take]; omega⟩, fun h => absurd h (by omega)⟩
      · simp only [if_pos h1, if_neg h2, reduceCtorEq] at h
    · cases (Except.ok.inj (if_neg h1 ▸ h))
      exact ⟨hx, hc, rfl, hu, fun h => absurd h h0, fun _ h => absurd h h1, fun _ => ⟨rfl, rfl⟩⟩
  · have h2 : ¬ rq.contentLength.toNat ≤ rq.body.chunks.flatten.length := by omega
    simp only [roundTripWithSession, shapeRequest_spec, if_neg (show ¬ rq.contentLength ≤ 0 by omega),
      if_pos h1, if_neg h2]
  · simp only [roundTripWithSession, shapeRequest_spec]
    split_ifs <;> first | exact ⟨_, rfl⟩ | omega

/-! ## the session number of `RoundTrip` -/

/-- `RoundTrip`'s `int(atomic.AddInt32(&httpSessionID, 1)-1) % 1000`, from the value `c` of the
`int32` counter `httpSessionID` before the call: the session number, and the counter after the
call.  `AddInt32` returns the counter after the add; the `- 1` is done in `int32`, and `%`
truncates towards zero, as Go's does. -/
def roundTripSession (c : BitVec 32) : Int × BitVec 32 :=
  (((c + 1) - 1).toInt.tmod 1000, c + 1)

/-- the session numbers of `n` calls of `RoundTrip` from the counter value `c`.  Each
`AddInt32` is atomic, so however the calls interleave, they take the counter values `c`,
`c + 1`, … in the order of their adds; the list is in that order. -/
def sessions (c : BitVec 32) : Nat → List Int
  | 0 => []
  | n + 1 => (roundTripSession c).1 :: sessions (roundTripSession c).2 n

/-- Go's `x % 1000`, for `x` of either sign -/
theorem tmod_thousand (x : Int) :
    -1000 < x.tmod 1000 ∧ x.tmod 1000 < 1000 ∧ (x.tmod 1000 < 0 ↔ x < 0 ∧ x % 1000 ≠ 0) := by
  cases x with
  | ofNat m =>
    have : (Int.ofNat m).tmod 1000 = ((m % 1000 : Nat) : Int) := rfl
    rw [Int.ofNat_eq_coe] at *
    omega
  | negSucc m =>
    have : (Int.negSucc m).tmod 1000 = -(((m + 1) % 1000 : Nat) : Int) := rfl
    rw [Int.negSucc_eq] at *
    omega

/-- the session number is the counter's value before the call, `% 1000` as Go takes it: it
lies strictly between `-1000` and `1000`, and is negative exactly when the counter is negative
and not a multiple of 1000 -/
theorem roundTripSession_spec (c : BitVec 32) :
    (roundTripSession c).1 = c.toInt.tmod 1000 ∧ (roundTripSession c).2 = c + 1 ∧
      -1000 < (roundTripSession c).1 ∧ (roundTripSession c).1 < 1000 ∧
      ((roundTripSession c).1 < 0 ↔ c.toInt < 0 ∧ c.toInt % 1000 ≠ 0) := by
  have e : (roundTripSession c).1 = c.toInt.tmod 1000 := by
    rw [roundTripSession, BitVec.add_sub_cancel]
  rw [e]
  exact ⟨rfl, rfl, tmod_thousand c.toInt⟩

example : sessions 998 3 = [998, 999, 0] := by decide

/-- call `k` of a run gets the counter value `c + k` -/
theorem sessions_eq (c : BitVec 32) (n : Nat) :
    sessions c n = (List.range n).map fun k => (c + BitVec.ofNat 32 k).toInt.tmod 1000 := by
  induction n generalizing c with
  | zero => rfl
  | succ n ih =>
    rw [sessions, ih, List.range_succ_eq_map, List.map_cons, List.map_map, (roundTripSession_spec c).1,
      (roundTripSession_spec c).2.1]
    congr 1
    · simp
    · refine List.map_congr_left fun k _ => ?_
      simp only [Function.comp]
      congr 2
      apply BitVec.eq_of_toNat_eq
      simp [BitVec.toNat_add, Nat.add_assoc, Nat.add_comm 1]

/-- **The session number after the counter wraps.**  From `httpSessionID = 0`, `2^31` calls of
`RoundTrip` take the counter past `2^31 - 1`, to `-2^31`, and the next call's session number is
`-648`.  Whatever value the counter starts from, some call of a run gets that number. -/
theorem session_negative_after_wrap :
    (sessions 0 (2 ^ 31 + 1))[2 ^ 31]? = some (-648) ∧
      ∀ c : BitVec 32, ∃ k < 2 ^ 32, (sessions c (k + 1))[k]? = some (-648) := by
  have hwrap : (BitVec.ofNat 32 (2 ^ 31)).toInt.tmod 1000 = -648 := by decide
  refine ⟨?_, fun c => ⟨(2 ^ 31 + 2 ^ 32 - c.toNat) % 2 ^ 32, Nat.mod_lt _ (by decide), ?_⟩⟩
  · rw [sessions_eq, List.getElem?_map, List.getElem?_range (by omega), Option.map_some']
    decide
  · rw [sessions_eq, List.getElem?_map, List.getElem?_range (by omega), Option.map_some', ← hwrap]
    congr 3
    apply BitVec.eq_of_toNat_eq
    have := c.isLt
    simp only [BitVec.toNat_add, BitVec.toNat_ofNat]
    omega

end IppUsb
