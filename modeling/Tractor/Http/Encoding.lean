import Tractor.Http.Grammar
import Tractor.Http.Response

/-!
The response encoder against the header decoder.

* `appendToBuffer_lines`: what the encoder writes is a status line, the generated lines,
  one line for each header of the response, the empty line, and the body.  From a body of
  `10 ^ 13` bytes on, the length line is cut at the end of its scratch array and runs into
  the line behind it.
* `Framed.announces_iff`: the line that announces the close is in the header section exactly
  of the responses that close the connection.
* `parse_appendToBuffer`: **the decoder reads back what the encoder wrote**: the headers of
  the response over the generated ones, with the body left.
-/

namespace Tractor

open Library

/-! ### Decimal numbers -/

lemma ascii_append (s t : String) : ascii (s ++ t) = ascii s ++ ascii t := by
  simp [ascii, String.toList_append]

lemma ascii_toString (n : ℕ) :
    ascii (toString n) = (Nat.toDigits 10 n).map fun c => c.toNat.toUInt8 := by
  rw [ascii, Nat.toString_eq_repr, Nat.toList_repr]

/-- A decimal number is made of digits. -/
lemma digit_of_mem_toString {n : ℕ} {c : Byte} (h : c ∈ ascii (toString n)) :
    48 ≤ c.toNat ∧ c.toNat ≤ 57 := by
  rw [ascii_toString] at h
  obtain ⟨d, hd, rfl⟩ := List.mem_map.mp h
  have hdigit := Nat.isDigit_of_mem_toDigits (by decide) (by decide) hd
  obtain ⟨hlow, hhigh⟩ : 48 ≤ d.toNat ∧ d.toNat ≤ 57 := Char.isDigit_iff_toNat.mp hdigit
  rw [Nat.toUInt8, UInt8.toNat_ofNat', Nat.mod_eq_of_lt (by omega)]
  exact ⟨hlow, hhigh⟩

lemma isspace_digit {n : ℕ} {c : Byte} (h : c ∈ ascii (toString n)) : isspace c = false := by
  obtain ⟨hlow, -⟩ := digit_of_mem_toString h
  have hne : c ≠ 32 := by
    rintro rfl
    exact absurd hlow (by decide)
  have hnle : ¬ c ≤ 13 := by
    intro hle
    have hle' : c.toNat ≤ 13 := UInt8.le_iff_toNat_le.mp hle
    omega
  simp [isspace, hne, hnle]

/-- The number of its digits. -/
lemma length_toString_le_iff {n k : ℕ} (hk : 0 < k) :
    (ascii (toString n)).length ≤ k ↔ n < 10 ^ k := by
  rw [ascii_toString, List.length_map]
  exact Nat.length_toDigits_le_iff (by decide) hk

namespace HttpResponse

/-! ### What the encoder writes -/

/-- The status line without its end. -/
def statusLine (r : HttpResponse) : List Byte :=
  ascii s!"HTTP/1.1 {r.statusCode.toNat} " ++ r.statusMessage

/-- The line of a header without its end. -/
def headerText (h : List Byte × List Byte) : List Byte := h.1 ++ ascii ": " ++ h.2

/-- The lines of the encoder's own headers.  A length of more than 13 digits leaves no room
for the end of its line. -/
def generatedLines (r : HttpResponse) : List (List Byte) :=
  if r.closeConnection then [ascii "Connection: close"]
  else if r.body.length < 10 ^ 13 then
    [ascii "Content-Length: " ++ ascii (toString r.body.length), ascii "Connection: Keep-Alive"]
  else
    [(ascii "Content-Length: " ++ ascii (toString r.body.length) ++ [13]).take 31 ++
      ascii "Connection: Keep-Alive"]

lemma ascii_crlf : ascii "\r\n" = [13, 10] := rfl

/-- The status fits its scratch array. -/
lemma snprintf_status (c : HttpStatusCode) :
    snprintf 32 (ascii s!"HTTP/1.1 {c.toNat} ") = ascii s!"HTTP/1.1 {c.toNat} " := by
  cases c <;> rfl

lemma ascii_contentLength (n : ℕ) : ascii s!"Content-Length: {n}\r\n" =
    ascii "Content-Length: " ++ ascii (toString n) ++ [13, 10] := by
  rw [ascii_append, ascii_append]
  rfl

/-- A length of at most 13 digits fits its scratch array. -/
lemma snprintf_contentLength {n : ℕ} (h : n < 10 ^ 13) :
    snprintf 32 (ascii s!"Content-Length: {n}\r\n") =
      ascii "Content-Length: " ++ ascii (toString n) ++ [13, 10] := by
  have hdigits : (ascii (toString n)).length ≤ 13 := (length_toString_le_iff (by decide)).mpr h
  rw [ascii_contentLength, snprintf]
  refine List.take_of_length_le ?_
  rw [List.length_append, List.length_append]
  have hname : (ascii "Content-Length: ").length = 16 := rfl
  simp only [hname, List.length_cons, List.length_nil]
  omega

/-- A longer one loses the end of its line. -/
lemma snprintf_contentLength_cut {n : ℕ} (h : 10 ^ 13 ≤ n) :
    snprintf 32 (ascii s!"Content-Length: {n}\r\n") =
      (ascii "Content-Length: " ++ ascii (toString n) ++ [13]).take 31 := by
  have hdigits : 13 < (ascii (toString n)).length := by
    by_contra hle
    exact absurd ((length_toString_le_iff (by decide)).mp (not_lt.mp hle)) (by omega)
  have hname : (ascii "Content-Length: ").length = 16 := rfl
  rw [ascii_contentLength, snprintf, show ([13, 10] : List Byte) = [13] ++ [10] from rfl,
    ← List.append_assoc]
  refine List.take_append_of_le_length ?_
  rw [List.length_append, List.length_append]
  simp only [hname, List.length_cons, List.length_nil]
  omega

/-- The encoder's own headers are its generated lines. -/
lemma generated_eq (r : HttpResponse) :
    (if r.closeConnection then ascii "Connection: close\r\n"
      else snprintf 32 (ascii s!"Content-Length: {r.body.length}\r\n") ++
        ascii "Connection: Keep-Alive\r\n") = unlines 13 10 r.generatedLines := by
  have hkeep : ascii "Connection: Keep-Alive\r\n" = ascii "Connection: Keep-Alive" ++ [13, 10] :=
    rfl
  rw [generatedLines]
  split_ifs with hclose hbody
  · rfl
  · rw [snprintf_contentLength hbody, hkeep, unlines_cons, unlines_cons, unlines_nil]
    simp
  · rw [snprintf_contentLength_cut (not_lt.mp hbody), hkeep, unlines_cons, unlines_nil]
    simp

/-- **The encoder writes lines and the body.** -/
theorem appendToBuffer_lines (r : HttpResponse) (output : List Byte) :
    r.appendToBuffer output = output ++ unlines 13 10 (r.statusLine :: (r.generatedLines ++
      r.headers.toList.map headerText ++ [[]])) ++ r.body := by
  have hheaders : (r.headers.toList.flatMap fun header =>
      header.1 ++ ascii ": " ++ header.2 ++ ascii "\r\n") =
      unlines 13 10 (r.headers.toList.map headerText) := by
    rw [unlines, List.flatMap_map]
    rfl
  have hgenerated := r.generated_eq
  have happend : r.appendToBuffer output = output ++
      snprintf 32 (ascii s!"HTTP/1.1 {r.statusCode.toNat} ") ++ r.statusMessage ++ ascii "\r\n" ++
      (if r.closeConnection then ascii "Connection: close\r\n"
        else snprintf 32 (ascii s!"Content-Length: {r.body.length}\r\n") ++
          ascii "Connection: Keep-Alive\r\n") ++
      (r.headers.toList.flatMap fun header =>
        header.1 ++ ascii ": " ++ header.2 ++ ascii "\r\n") ++ ascii "\r\n" ++ r.body := by
    rw [appendToBuffer]
    split_ifs <;> simp only [List.append_assoc]
  rw [happend, hgenerated, hheaders, snprintf_status, ascii_crlf, unlines_cons, unlines_append,
    unlines_append, unlines_cons, unlines_nil, statusLine]
  simp only [List.append_assoc, List.cons_append, List.nil_append]

/-! ### Reading it back -/

/-- A header that survives its way through a header line. -/
structure Plain (field value : List Byte) : Prop where
  colon_notMem_field : 58 ∉ field
  field_free : Free 13 10 field
  value_free : Free 13 10 value
  value_head : ∀ c ∈ value.head?, isspace c = false
  value_last : ∀ c ∈ value.getLast?, isspace c = false

/-- The header line the encoder writes. -/
def Plain.line {field value : List Byte} (h : Plain field value) : HeaderLine where
  field := field
  before := [32]
  value := value
  after := []
  colon_notMem_field := h.colon_notMem_field
  field_free := h.field_free
  value_free := h.value_free
  value_head := h.value_head
  value_last := h.value_last
  before_blank := by simp
  after_blank := by simp

lemma Plain.text_line {field value : List Byte} (h : Plain field value) :
    h.line.text = headerText (field, value) := by
  simp [HeaderLine.text, Plain.line, headerText, ascii]

/-- The headers of a response that is made of lines. -/
structure Encodable (r : HttpResponse) : Prop where
  message_free : Free 13 10 r.statusMessage
  header_plain : ∀ field value, r.headers[field]? = some value → Plain field value

/-- The headers the encoder adds. -/
def generatedHeaders (r : HttpResponse) : Std.ExtTreeMap (List Byte) (List Byte) :=
  if r.closeConnection then
    (∅ : Std.ExtTreeMap (List Byte) (List Byte)).insert (ascii "Connection") (ascii "close")
  else
    ((∅ : Std.ExtTreeMap (List Byte) (List Byte)).insert (ascii "Content-Length")
      (ascii (toString r.body.length))).insert (ascii "Connection") (ascii "Keep-Alive")

lemma plain_close : Plain (ascii "Connection") (ascii "close") where
  colon_notMem_field := by decide
  field_free := by decide
  value_free := by decide
  value_head := by simp [ascii, isspace]
  value_last := by simp [ascii, isspace]

lemma plain_keepAlive : Plain (ascii "Connection") (ascii "Keep-Alive") where
  colon_notMem_field := by decide
  field_free := by decide
  value_free := by decide
  value_head := by simp [ascii, isspace]
  value_last := by simp [ascii, isspace]

lemma plain_contentLength (n : ℕ) : Plain (ascii "Content-Length") (ascii (toString n)) where
  colon_notMem_field := by decide
  field_free := by decide
  value_free := by
    refine free_of_notMem fun h => ?_
    exact absurd (digit_of_mem_toString h).1 (by decide)
  value_head c hc := isspace_digit (List.mem_of_mem_head? hc)
  value_last c hc := isspace_digit (List.mem_of_mem_getLast? hc)

/-- The generated lines are header lines with the generated headers. -/
lemma exists_generated (r : HttpResponse) (hbody : r.body.length < 10 ^ 13) :
    ∃ hs : List HeaderLine, hs.map HeaderLine.text = r.generatedLines ∧
      hs.foldl HeaderLine.store ∅ = r.generatedHeaders := by
  rw [generatedLines, generatedHeaders]
  split_ifs
  · exact ⟨[plain_close.line], by rw [List.map_singleton, plain_close.text_line]; rfl, rfl⟩
  · refine ⟨[(plain_contentLength r.body.length).line, plain_keepAlive.line], ?_, rfl⟩
    simp only [List.map_cons, List.map_nil, Plain.text_line]
    simp [headerText, ascii]

/-- Headers that are plain are header lines. -/
lemma exists_headerLines {hs : List (List Byte × List Byte)} (h : ∀ x ∈ hs, Plain x.1 x.2) :
    ∃ ls : List HeaderLine, ls.map HeaderLine.text = hs.map headerText ∧
      ls.map (fun l => (l.field, l.value)) = hs := by
  induction hs with
  | nil => exact ⟨[], rfl, rfl⟩
  | cons x hs ih =>
      have hx := h x (by simp)
      obtain ⟨ls, htext, hpairs⟩ := ih fun y hy => h y (by simp [hy])
      refine ⟨hx.line :: ls, ?_, ?_⟩
      · rw [List.map_cons, List.map_cons, htext, hx.text_line]
      · rw [List.map_cons, hpairs]
        rfl

/-- The lines of a map have the values of the map. -/
lemma lastValue_toList {ls : List HeaderLine} {m : Std.ExtTreeMap (List Byte) (List Byte)}
    (h : ls.map (fun l => (l.field, l.value)) = m.toList) (field : List Byte) :
    HeaderLine.lastValue ls field = m[field]? := by
  have hmem : ∀ l ∈ ls, m[l.field]? = some l.value := by
    intro l hl
    have hl' : (l.field, l.value) ∈ m.toList := h ▸ List.mem_map.mpr ⟨l, hl, rfl⟩
    exact Std.ExtTreeMap.mem_toList_iff_getElem?_eq_some.mp hl'
  rw [HeaderLine.lastValue]
  cases hlast : (ls.filter fun l => l.field = field).getLast? with
  | some l =>
      -- every line with this field has the value of the map
      have hl := List.mem_filter.mp (List.mem_of_mem_getLast? hlast)
      obtain rfl : l.field = field := by simpa using hl.2
      rw [hmem l hl.1]
      rfl
  | none =>
      rw [List.getLast?_eq_none_iff] at hlast
      cases hf : m[field]? with
      | none => rfl
      | some value =>
          have hpair : (field, value) ∈ m.toList :=
            Std.ExtTreeMap.mem_toList_iff_getElem?_eq_some.mpr hf
          rw [← h] at hpair
          obtain ⟨l, hl, heq⟩ := List.mem_map.mp hpair
          have hin : l ∈ ls.filter fun l => l.field = field :=
            List.mem_filter.mpr ⟨hl, by simpa using congrArg Prod.fst heq⟩
          rw [hlast] at hin
          exact absurd hin (by simp)

/-- The status line is one line. -/
lemma statusLine_free {r : HttpResponse} (h : Free 13 10 r.statusMessage) :
    Free 13 10 r.statusLine := by
  have hstatus : Free 13 10 (ascii s!"HTTP/1.1 {r.statusCode.toNat}") := by
    cases r.statusCode <;> decide
  have hline : r.statusLine = ascii s!"HTTP/1.1 {r.statusCode.toNat}" ++ 32 :: r.statusMessage := by
    rw [statusLine, ascii_append, List.append_assoc]
    rfl
  rw [hline]
  exact hstatus.append (h.cons (by decide)) (by simp)

/-- **The decoder reads back what the encoder wrote.**  Behind one status line stand bytes
from which any parser that expects header lines gets all of a request, with the headers of
the response over the generated ones and these over what it had, and the body is left. -/
theorem parse_appendToBuffer (r : HttpResponse) (hr : r.Encodable) (hbody : r.body.length < 10 ^ 13)
    (output : List Byte) :
    ∃ bytes : List Byte,
      r.appendToBuffer output = output ++ r.statusLine ++ [13, 10] ++ bytes ∧
      Free 13 10 r.statusLine ∧
      ∀ (p : HttpParser) (t : ℤ) (b : ValidBuffer), p.state = .kExpectHeaders → b.view = bytes →
        ∃ (p' : HttpParser) (b' : ValidBuffer),
          p.parseRuquest b t = .ret (true, p', b') ∧
          p'.gotAll = true ∧
          (∀ field : List Byte, p'.httpRequest.headers[field]? = r.headers[field]?.or
            (r.generatedHeaders[field]?.or p.httpRequest.headers[field]?)) ∧
          b'.view = r.body := by
  obtain ⟨gs, hgs, hgenerated⟩ := r.exists_generated hbody
  have hplain : ∀ x ∈ r.headers.toList, Plain x.1 x.2 := fun x hx =>
    hr.header_plain x.1 x.2 (Std.ExtTreeMap.mem_toList_iff_getElem?_eq_some.mp hx)
  obtain ⟨hs, hhs, hpairs⟩ := exists_headerLines hplain
  refine ⟨unlines 13 10 (r.generatedLines ++ r.headers.toList.map headerText ++ [[]]) ++ r.body,
    ?_, statusLine_free hr.message_free, fun p t b hp hb => ?_⟩
  · rw [appendToBuffer_lines, unlines_cons]
    simp only [List.append_assoc, List.cons_append, List.nil_append]
  · have hparse := HttpParser.parses_headers (t := t) (gs ++ hs) hp r.body
    rw [List.map_append, hgs, hhs, List.foldl_append] at hparse
    have hret := HttpParser.parseRuquest_eq hparse (Or.inr hp)
    rw [← hb] at hret
    obtain ⟨b', hret', hview⟩ := HttpParser.parseRuquest_of_view hret
    refine ⟨_, b', hret', rfl, fun field => ?_, hview⟩
    have hgen : HeaderLine.lastValue gs field = r.generatedHeaders[field]? := by
      rw [← hgenerated, HeaderLine.getElem?_foldl_store, Std.ExtTreeMap.getElem?_empty,
        Option.or_none]
    change (hs.foldl HeaderLine.store (gs.foldl HeaderLine.store p.httpRequest.headers))[field]? = _
    rw [HeaderLine.getElem?_foldl_store, HeaderLine.getElem?_foldl_store, hgen,
      lastValue_toList hpairs]

/-- A response with one header and a body with a line end in it. -/
theorem parse_appendToBuffer_hi : ∃ (p' : HttpParser) (b b' : ValidBuffer),
    (((HttpResponse.new false).setStatusCode .k200Ok).setContentType (ascii "text")
      |>.setBody (ascii "hi\r\n")).appendToBuffer [] =
        ascii "HTTP/1.1 200 " ++ [13, 10] ++ b.view ∧
    HttpParser.parseRuquest ⟨.kExpectHeaders, HttpRequest.new⟩ b 0 = .ret (true, p', b') ∧
    p'.gotAll = true ∧
    p'.httpRequest.headers[ascii "Content-Length"]? = some (ascii "4") ∧
    p'.httpRequest.headers[ascii "Connection"]? = some (ascii "Keep-Alive") ∧
    p'.httpRequest.headers[ascii "Content-Type"]? = some (ascii "text") ∧
    b'.view = ascii "hi\r\n" := by
  let r : HttpResponse := ((HttpResponse.new false).setStatusCode .k200Ok).setContentType
    (ascii "text") |>.setBody (ascii "hi\r\n")
  have hr : r.Encodable := by
    refine ⟨free_nil, fun field value h => ?_⟩
    change ((∅ : Std.ExtTreeMap (List Byte) (List Byte)).insert (ascii "Content-Type")
      (ascii "text"))[field]? = some value at h
    rw [Std.ExtTreeMap.getElem?_insert] at h
    split_ifs at h with hfield
    · obtain rfl : ascii "Content-Type" = field := by simpa using hfield
      obtain rfl := Option.some.inj h
      exact ⟨by decide, by decide, by decide, by simp [ascii, isspace], by simp [ascii, isspace]⟩
    · simp at h
  obtain ⟨bytes, htext, -, hparse⟩ := parse_appendToBuffer r hr (by decide) []
  obtain ⟨b, hb⟩ : ∃ b : ValidBuffer, b.view = bytes := by
    refine ValidBuffer.exists_view_of_short bytes ?_
    have hlen := congrArg List.length htext
    have htotal : (r.appendToBuffer []).length ≤ 100 := by decide +kernel
    simp only [List.length_append] at hlen
    simp only [Buffer.kInitialSize]
    omega
  obtain ⟨p', b', hret, hgot, hheaders, hview⟩ :=
    hparse ⟨.kExpectHeaders, HttpRequest.new⟩ 0 b rfl hb
  refine ⟨p', b, b', ?_, hret, hgot, ?_, ?_, ?_, hview⟩
  · rw [show r.statusLine = ascii "HTTP/1.1 200 " by decide, ← hb] at htext
    exact htext
  · rw [hheaders]
    decide +kernel
  · rw [hheaders]
    decide +kernel
  · rw [hheaders]
    decide +kernel

/-! ### The header section -/

/-- The lines of a text behind its first one, up to the empty line. -/
def headerSection (text : List Byte) : List (List Byte) :=
  (lines 13 10 text).tail.takeWhile fun l => l ≠ []

/-- A response without a `Connection` header of its own and without line ends in its status
message and headers. -/
structure Framed (r : HttpResponse) : Prop where
  message_free : Free 13 10 r.statusMessage
  header_free : ∀ field value : List Byte, r.headers[field]? = some value →
    Free 13 10 field ∧ Free 13 10 value
  connection : r.headers[ascii "Connection"]? = none

lemma headerText_ne_nil (h : List Byte × List Byte) : headerText h ≠ [] := by
  simp [headerText, ascii]

/-- A line that reads like the announced close is a `Connection` header. -/
lemma field_of_headerText {h : List Byte × List Byte}
    (heq : headerText h = ascii "Connection: close") : h.1 = ascii "Connection" := by
  have hsplit : ascii "Connection" ++ 58 :: ascii " close" = h.1 ++ 58 :: (32 :: h.2) := by
    rw [headerText] at heq
    simpa [ascii] using heq.symm
  exact ((List.append_cons_inj_of_notMem (by decide) (by decide)).mp hsplit).1.symm

/-- The length line does not read like the announced close, cut or not. -/
lemma ne_close_of_take {l : List Byte} (h : l.take 4 = ascii "Cont") :
    ascii "Connection: close" ≠ l := by
  rintro rfl
  exact absurd h (by decide)

/-- The generated lines are lines, and the announced close is among them if and only if the
response closes the connection. -/
lemma generatedLines_spec (r : HttpResponse) :
    (∀ l ∈ r.generatedLines, Free 13 10 l ∧ l ≠ []) ∧
      (ascii "Connection: close" ∈ r.generatedLines ↔ r.closeConnection = true) := by
  have hdigits : (10 : Byte) ∉ ascii (toString r.body.length) := fun h =>
    absurd (digit_of_mem_toString h).1 (by decide)
  have hname : (10 : Byte) ∉ ascii "Content-Length: " := by decide
  have hkeep : (10 : Byte) ∉ ascii "Connection: Keep-Alive" := by decide
  rw [generatedLines]
  split_ifs with hclose hbody
  · refine ⟨fun l hl => ?_, by simp [hclose]⟩
    obtain rfl := List.mem_singleton.mp hl
    decide
  · have hlength : Free 13 10 (ascii "Content-Length: " ++ ascii (toString r.body.length)) :=
      free_of_notMem (List.not_mem_append hname hdigits)
    have hne : ascii "Connection: close" ≠
        ascii "Content-Length: " ++ ascii (toString r.body.length) := ne_close_of_take rfl
    refine ⟨fun l hl => ?_, ?_⟩
    · rcases List.mem_cons.mp hl with rfl | hl
      · exact ⟨hlength, by simp [ascii]⟩
      · obtain rfl := List.mem_singleton.mp hl
        decide
    · refine iff_of_false (fun hmem => ?_) hclose
      rcases List.mem_cons.mp hmem with heq | hmem
      · exact hne heq
      · exact absurd hmem (by decide)
  · have hcut : (10 : Byte) ∉
        (ascii "Content-Length: " ++ ascii (toString r.body.length) ++ [13]).take 31 := by
      intro hmem
      exact List.not_mem_append (List.not_mem_append hname hdigits) (by decide)
        (List.mem_of_mem_take hmem)
    refine ⟨fun l hl => ?_, ?_⟩
    · obtain rfl := List.mem_singleton.mp hl
      exact ⟨free_of_notMem (List.not_mem_append hcut hkeep), by simp [ascii]⟩
    · refine iff_of_false (fun hmem => ?_) hclose
      exact ne_close_of_take rfl (List.mem_singleton.mp hmem)

/-- **What a response says of the close agrees with what it asks for**: the announced close
is a line of its header section if and only if it closes the connection. -/
theorem Framed.announces_iff {r : HttpResponse} (h : r.Framed) :
    ascii "Connection: close" ∈ headerSection (r.appendToBuffer []) ↔ r.closeConnection = true := by
  obtain ⟨hgen, hclose⟩ := r.generatedLines_spec
  have hheader : ∀ x ∈ r.headers.toList, r.headers[x.1]? = some x.2 := fun x hx =>
    Std.ExtTreeMap.mem_toList_iff_getElem?_eq_some.mp hx
  have hown : ∀ l ∈ r.headers.toList.map headerText, Free 13 10 l ∧ l ≠ [] := by
    intro l hl
    obtain ⟨x, hx, rfl⟩ := List.mem_map.mp hl
    obtain ⟨hfield, hvalue⟩ := h.header_free x.1 x.2 (hheader x hx)
    refine ⟨?_, headerText_ne_nil x⟩
    have htext : headerText x = x.1 ++ 58 :: 32 :: x.2 := by simp [headerText, ascii]
    rw [htext]
    exact hfield.append ((hvalue.cons (by decide)).cons (by decide)) (by simp)
  have hlines : ∀ l ∈ r.generatedLines ++ r.headers.toList.map headerText,
      Free 13 10 l ∧ l ≠ [] := by
    intro l hl
    rcases List.mem_append.mp hl with hl | hl
    · exact hgen l hl
    · exact hown l hl
  -- the header section is what the encoder wrote between the status line and the empty line
  have hsection : headerSection (r.appendToBuffer []) =
      r.generatedLines ++ r.headers.toList.map headerText := by
    have hfree := HttpParser.free_of_request (statusLine_free h.message_free)
      (fun l hl => (hlines l hl).1) free_nil
    rw [headerSection, appendToBuffer_lines, List.nil_append,
      lines_unlines (by decide) hfree, List.cons_append, List.tail_cons, List.append_assoc,
      List.takeWhile_append_of_pos fun l hl => by simpa using (hlines l hl).2]
    simp
  rw [hsection, List.mem_append, ← hclose]
  refine or_iff_left fun hmem => ?_
  obtain ⟨x, hx, heq⟩ := List.mem_map.mp hmem
  have hnone := h.connection
  rw [← field_of_headerText heq, hheader x hx] at hnone
  exact absurd hnone (by simp)

end HttpResponse

end Tractor
