import IppUsb.Log.Output
import IppUsb.Transport.Request
import Mathlib.Data.List.Sort
import Mathlib.Data.String.Basic

/-!
# `LogMessage.HTTPRequest` and `LogMessage.HTTPResponse`

When its level is on in `levels | ccLevels`, `HTTPRequest` adds the title
`HTTP[%3.3d]: HTTP request header:` and then the request as `rq.Write` writes it with its body
dropped.  The bytes are split at each `'\n'`, a `'\r'` that ends a piece is dropped, and each
piece is added as `"  %s"`; the loop stops after the first empty piece, the blank line that
ends the header.  A line is a `logLineBuf`, the prefix first, as in `HexDump`.

* `fmt3d`, `httpTitle`       `%3.3d` of the session, and the title;
* `dropCR`, `headerLines`    one turn of the loop, and the loop;
* `httpRequest`              the lines `HTTPRequest` adds;
* `httpRequest_header`       for header lines ending in CR LF, a blank line and any body, the
                             lines are the title, each header line, and an empty one: nothing
                             of the body.

`HTTPResponse` copies `rsp.Header` into `hdr`, adds back the `Transfer-Encoding` the library
strips, and adds the title, `"  %s %s"` of the protocol and status, one `"  %s: %s"` line per
key of `hdr` with `hdr.Get(key)`, and `"  "`.  It collects the keys by `range hdr`, in an
order Go leaves open, and sorts them with `sort.Strings`.  A `Header`'s entries are listed in
the order `range` visits them; `String`'s order compares code points, which on UTF-8 is the
byte order `sort.Strings` uses.

* `respHeader`, `httpResponse`  the copy with `Transfer-Encoding`, and the lines;
* `httpResponse_order`          the lines are the same for every order `range` visits the
                                header in.
-/

namespace IppUsb

/-- the bytes of a Go string literal -/
def strBytes (s : String) : List UInt8 := s.toUTF8.data.toList

/-- `%3.3d`: a minus sign for a negative value, then at least three digits -/
def fmt3d (n : Int) : List UInt8 := (if n < 0 then [45] else []) ++ decPad 3 n.natAbs

/-- `"HTTP[%3.3d]: HTTP request header:"` -/
def httpTitle (session : Int) : List UInt8 :=
  strBytes "HTTP[" ++ fmt3d session ++ strBytes "]: HTTP request header:"

/-- `if sz := len(l); sz > 0 && l[sz-1] == '\r' { l = l[:sz-1] }` -/
def dropCR (l : List UInt8) : List UInt8 := if l.getLast? = some 13 then l.dropLast else l

/-- the loop over the pieces of `bytes.Split(buf.Bytes(), []byte("\n"))`: each piece, its
`'\r'` dropped, is added as `"  %s"`, and an empty one ends the loop -/
def headerLines (p : UInt8) : List (List UInt8) → List (List UInt8)
  | [] => []
  | l :: ls =>
    (linePrefix p ++ [32, 32] ++ dropCR l) :: if dropCR l = [] then [] else headerLines p ls

/-- `HTTPRequest(level, prefix, session, rq)`: the lines it adds, `wire` being what
`rq.Write(buf)` writes for the request with its body dropped -/
def httpRequest (levels ccLevels level : Nat) (p : UInt8) (session : Int) (wire : List UInt8) :
    List (List UInt8) :=
  if (levels ||| ccLevels) &&& level = 0 then []
  else (linePrefix p ++ httpTitle session) :: headerLines p (wire.splitOn 10)

@[simp] theorem dropCR_append_cr (h : List UInt8) : dropCR (h ++ [13]) = h := by
  simp [dropCR]

/-- the header lines, each with its `'\r'`, are logged as they are -/
theorem headerLines_append (p : UInt8) (hdr rest : List (List UInt8)) (hne : ∀ h ∈ hdr, h ≠ []) :
    headerLines p (hdr.map (· ++ [13]) ++ rest) =
      hdr.map (fun h => linePrefix p ++ [32, 32] ++ h) ++ headerLines p rest := by
  induction hdr with
  | nil => rfl
  | cons h hdr ih =>
    rw [List.map_cons, List.cons_append, headerLines, dropCR_append_cr,
      if_neg (hne h (List.mem_cons_self _ _)), ih fun h' hh' => hne h' (List.mem_cons_of_mem _ hh')]
    rfl

/-- a header of lines free of `'\n'`, each ending in CR LF, then CR LF: the pieces are the
lines with their `'\r'`, a lone `'\r'`, and the pieces of the body -/
theorem splitOn_header (hdr : List (List UInt8)) (body : List UInt8)
    (hnl : ∀ h ∈ hdr, (10 : UInt8) ∉ h) :
    (hdr.flatMap (fun h => h ++ [13, 10]) ++ [13, 10] ++ body).splitOn 10 =
      hdr.map (· ++ [13]) ++ [13] :: body.splitOn 10 := by
  have e : (fun h : List UInt8 => h ++ [13, 10]) = fun h => (h ++ [13]) ++ [10] := by
    funext h; simp
  rw [e, List.append_assoc, splitOn_lines 10 hdr _ fun h hh => by simpa using hnl h hh,
    show ([13, 10] ++ body : List UInt8) = [13] ++ 10 :: body from rfl, splitOn_append_cons,
    splitOn_of_not_mem (by decide)]
  rfl

/-- **`HTTPRequest` logs the header and never the body.**  When `rq.Write` writes header lines
that are not empty and hold no `'\n'`, each ended by CR LF, then the blank line CR LF and any
body, the lines `HTTPRequest` adds are the title, `"  "` before each header line, and `"  "`
for the blank line; the body, whatever it holds, adds nothing. -/
theorem httpRequest_header (levels ccLevels level : Nat) (p : UInt8) (session : Int)
    (hdr : List (List UInt8)) (body : List UInt8) (hon : (levels ||| ccLevels) &&& level ≠ 0)
    (hne : ∀ h ∈ hdr, h ≠ []) (hnl : ∀ h ∈ hdr, (10 : UInt8) ∉ h) :
    httpRequest levels ccLevels level p session
        (hdr.flatMap (fun h => h ++ [13, 10]) ++ [13, 10] ++ body) =
      (linePrefix p ++ httpTitle session) ::
        (hdr.map fun h => linePrefix p ++ [32, 32] ++ h) ++ [linePrefix p ++ [32, 32]] := by
  rw [httpRequest, if_neg hon, splitOn_header hdr body hnl, headerLines_append p _ _ hne]
  simp [headerLines, dropCR]

theorem httpRequest_header_get :
    httpRequest 1 0 1 0 7 ([[71, 69, 84], [72]].flatMap (fun h => h ++ [13, 10]) ++ [13, 10] ++ [66]) =
      (linePrefix 0 ++ httpTitle 7) ::
        ([[71, 69, 84], [72]].map fun h => linePrefix 0 ++ [32, 32] ++ h) ++ [linePrefix 0 ++ [32, 32]] :=
  httpRequest_header 1 0 1 0 7 [[71, 69, 84], [72]] [66] (by decide) (by decide) (by decide)

/-! ## `HTTPResponse` -/

/-- `"HTTP[%3.3d]: HTTP response header:"` -/
def httpRespTitle (session : Int) : List UInt8 :=
  strBytes "HTTP[" ++ fmt3d session ++ strBytes "]: HTTP response header:"

/-- `h.Get(k)` for a canonical `k`: its first value, or `""` -/
def Header.getFirst (h : Header) (k : String) : String := ((h.get? k).getD []).headD ""

/-- `h.Add(k, v)` for a canonical `k`: `v` after the values `k` has -/
def Header.add (h : Header) (k v : String) : Header := h.set k ((h.get? k).getD [] ++ [v])

/-- `hdr`: the copy of `rsp.Header`, with `Transfer-Encoding` added from
`strings.Join(rsp.TransferEncoding, ", ")` when `rsp.TransferEncoding` is not nil -/
def respHeader (h : Header) (te : Option (List String)) : Header :=
  match te with
  | some te => h.add "Transfer-Encoding" (String.intercalate ", " te)
  | none => h

/-- the keys of `hdr` after `sort.Strings(keys)` -/
def sortedKeys (h : Header) : List String :=
  (h.entries.map Prod.fst).mergeSort

/-- `HTTPResponse(level, prefix, session, rsp)`: the lines it adds for a response with protocol
`proto`, status `status`, header `h` and `TransferEncoding` `te` -/
def httpResponse (levels ccLevels level : Nat) (p : UInt8) (session : Int) (proto status : String)
    (h : Header) (te : Option (List String)) : List (List UInt8) :=
  if (levels ||| ccLevels) &&& level = 0 then []
  else
    (linePrefix p ++ httpRespTitle session) ::
      (linePrefix p ++ strBytes ("  " ++ proto ++ " " ++ status)) ::
      ((sortedKeys (respHeader h te)).map fun k =>
        linePrefix p ++ strBytes ("  " ++ k ++ ": " ++ (respHeader h te).getFirst k)) ++
      [linePrefix p ++ [32, 32]]

/-- with each key once, a key's value is the one entry that holds it -/
theorem Header.get?_eq_some_iff (h : Header) (k : String) (vs : List String) :
    h.get? k = some vs ↔ (k, vs) ∈ h.entries := by
  constructor
  · intro hg
    obtain ⟨⟨k', vs'⟩, he, rfl⟩ := Option.map_eq_some'.mp hg
    obtain rfl : k' = k := by simpa using List.find?_some he
    exact List.mem_of_find?_eq_some he
  · intro hm
    have hs : (h.entries.find? (·.1 == k)).isSome :=
      List.find?_isSome.mpr ⟨(k, vs), hm, beq_self_eq_true k⟩
    obtain ⟨e, he⟩ := Option.isSome_iff_exists.mp hs
    have hk : e.1 = k := by simpa using List.find?_some he
    have := List.inj_on_of_nodup_map h.nodup (List.mem_of_find?_eq_some he) hm hk
    simp [Header.get?, he, this]

/-- two listings of the same map give every key the same value -/
theorem Header.get?_perm {h₁ h₂ : Header} (hp : h₁.entries.Perm h₂.entries) (k : String) :
    h₁.get? k = h₂.get? k :=
  Option.ext fun vs => by simp only [Option.mem_def, Header.get?_eq_some_iff, hp.mem_iff]

theorem respHeader_perm {h₁ h₂ : Header} (hp : h₁.entries.Perm h₂.entries) (te : Option (List String)) :
    (respHeader h₁ te).entries.Perm (respHeader h₂ te).entries := by
  cases te with
  | none => exact hp
  | some te =>
    simp only [respHeader, Header.add, Header.set, Header.get?_perm hp]
    exact (hp.filter _).append_right _

/-- `sort.Strings` puts any listing of the same keys in the same order -/
theorem sortedKeys_perm {h₁ h₂ : Header} (hp : h₁.entries.Perm h₂.entries) :
    sortedKeys h₁ = sortedKeys h₂ :=
  List.eq_of_perm_of_sorted ((List.mergeSort_perm _ _).trans
    ((hp.map Prod.fst).trans (List.mergeSort_perm _ _).symm))
    (List.sorted_mergeSort' _) (List.sorted_mergeSort' _)

/-- **The response dump does not depend on the map's order.**  Whatever order `range` visits
`rsp.Header` and its copy `hdr` in, `HTTPResponse` adds the same lines: `sort.Strings` orders
the keys, and `hdr.Get` reads each key's one entry. -/
theorem httpResponse_order (levels ccLevels level : Nat) (p : UInt8) (session : Int)
    (proto status : String) (h₁ h₂ : Header) (te : Option (List String))
    (hp : h₁.entries.Perm h₂.entries) :
    httpResponse levels ccLevels level p session proto status h₁ te =
      httpResponse levels ccLevels level p session proto status h₂ te := by
  have hr := respHeader_perm hp te
  simp only [httpResponse, sortedKeys_perm hr, Header.getFirst, Header.get?_perm hr]

/-- a header listed in two orders -/
def hdrAB : Header := ⟨[("A", ["1"]), ("B", ["2", "3"])], by decide⟩

def hdrBA : Header := ⟨[("B", ["2", "3"]), ("A", ["1"])], by decide⟩

theorem httpResponse_order_ab :
    hdrAB.entries.Perm hdrBA.entries ∧
      httpResponse 1 0 1 0 7 "HTTP/1.1" "200 OK" hdrAB (some ["chunked"]) =
        httpResponse 1 0 1 0 7 "HTTP/1.1" "200 OK" hdrBA (some ["chunked"]) :=
  ⟨List.Perm.swap _ _ _,
    httpResponse_order 1 0 1 0 7 "HTTP/1.1" "200 OK" hdrAB hdrBA (some ["chunked"])
      (List.Perm.swap _ _ _)⟩

end IppUsb
