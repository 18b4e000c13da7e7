import Tractor.Http.Incremental
import Tractor.Http.RequestLine

/-!
The texts a request parser is meant for, and the texts it takes for a request.

* `HeaderLine`, `RequestText`: a request as a client writes it, with what keeps its parts
  apart as fields.
* `parses_headers`: header lines and the empty line behind them, read from the state that
  expects them, whatever follows; `parseRuquest_text` adds the request line: **parsing
  undoes writing**.
* `Parses.completed`: what a parser that got all of a request has read, line by line;
  `Parses.gotAll_iff`: the bytes from which it gets all of one.
* `CompleteRequest`: the texts in which only the empty line ends the header lines;
  `gotAll_complete_iff`: what was taken for a request is one of them if and only if the
  first line without a colon was empty.
-/

namespace Tractor

open Library

/-! ### Header lines -/

/-- A header line: its field, its value, and the spaces and tabs around the value. -/
structure HeaderLine where
  field : List Byte
  before : List Byte
  value : List Byte
  after : List Byte
  colon_notMem_field : 58 ∉ field
  field_free : Free 13 10 field
  value_free : Free 13 10 value
  value_head : ∀ c ∈ value.head?, isspace c = false
  value_last : ∀ c ∈ value.getLast?, isspace c = false
  before_blank : ∀ c ∈ before, c = 32 ∨ c = 9
  after_blank : ∀ c ∈ after, c = 32 ∨ c = 9

namespace HeaderLine

/-- The line without its end. -/
def text (h : HeaderLine) : List Byte := h.field ++ 58 :: (h.before ++ h.value ++ h.after)

/-- A header line that is read into the map of headers. -/
def store (m : Std.ExtTreeMap (List Byte) (List Byte)) (h : HeaderLine) :
    Std.ExtTreeMap (List Byte) (List Byte) := m.insert h.field h.value

/-- The value of the last line with this field. -/
def lastValue (hs : List HeaderLine) (field : List Byte) : Option (List Byte) :=
  (hs.filter fun h => h.field = field).getLast?.map value

lemma isspace_of_blank {w : List Byte} (hw : ∀ c ∈ w, c = 32 ∨ c = 9) : ∀ c ∈ w, isspace c := by
  intro c hc
  rcases hw c hc with rfl | rfl <;> decide

lemma free_of_blank {w : List Byte} (hw : ∀ c ∈ w, c = 32 ∨ c = 9) : Free 13 10 w := by
  refine free_of_notMem fun hmem => ?_
  rcases hw 10 hmem with h | h <;> exact absurd h (by decide)

/-- A header line is one line. -/
lemma text_free (h : HeaderLine) : Free 13 10 h.text := by
  have hvalue : Free 13 10 (h.before ++ h.value) := by
    refine (free_of_blank h.before_blank).append h.value_free ?_
    rintro y hy rfl
    exact absurd (h.value_head _ hy) (by decide)
  have htail : Free 13 10 (h.before ++ h.value ++ h.after) := by
    refine hvalue.append (free_of_blank h.after_blank) ?_
    rintro y hy rfl
    rcases h.after_blank _ (List.mem_of_mem_head? hy) with h | h <;> exact absurd h (by decide)
  refine h.field_free.append (htail.cons (by decide)) ?_
  simp

/-- The line is split at its first colon. -/
lemma findIdx_text (h : HeaderLine) : h.text.findIdx (· == 58) = h.field.length :=
  findIdx_append_cons h.colon_notMem_field _

lemma addHeader_text (h : HeaderLine) (r : HttpRequest) :
    r.addHeader h.text h.field.length = { r with headers := store r.headers h } := by
  have hfield : h.text.take h.field.length = h.field := List.take_left
  have hrest : h.text.drop (h.field.length + 1) = h.before ++ h.value ++ h.after := by
    rw [← List.drop_drop, text, List.drop_left]
    rfl
  have hvalue : ((h.before ++ h.value ++ h.after).dropWhile isspace).rdropWhile isspace
      = h.value :=
    trim_append (isspace_of_blank h.before_blank) (isspace_of_blank h.after_blank) h.value_head
      h.value_last
  rw [HttpRequest.addHeader, hfield, hrest, hvalue]
  rfl

/-- **Later lines win.** -/
lemma getElem?_foldl_store (hs : List HeaderLine) (m : Std.ExtTreeMap (List Byte) (List Byte))
    (field : List Byte) : (hs.foldl store m)[field]? = (lastValue hs field).or m[field]? := by
  induction hs generalizing m with
  | nil => rfl
  | cons h hs ih =>
      rw [List.foldl_cons, ih]
      by_cases hf : h.field = field
      · -- the line itself counts when no later line has its field
        have hlast : lastValue (h :: hs) field = (lastValue hs field).or (some h.value) := by
          rw [lastValue, List.filter_cons_of_pos (by simpa using hf), List.getLast?_cons, lastValue]
          cases (hs.filter fun h => h.field = field).getLast? <;> rfl
        rw [hlast, store, Std.ExtTreeMap.getElem?_insert, hf]
        cases lastValue hs field <;> simp
      · have hlast : lastValue (h :: hs) field = lastValue hs field := by
          rw [lastValue, List.filter_cons_of_neg (by simpa using hf), lastValue]
        rw [hlast, store, Std.ExtTreeMap.getElem?_insert]
        simp [hf]

lemma getElem?_stored (hs : List HeaderLine) (field : List Byte) :
    (hs.foldl store ∅)[field]? = lastValue hs field := by
  rw [getElem?_foldl_store, Std.ExtTreeMap.getElem?_empty, Option.or_none]

end HeaderLine

namespace HttpParser

section Lines

variable {t : ℤ} {p p' : HttpParser} {l rest : List Byte}

/-- A complete line in front of the rest. -/
lemma Parses.line {res : Except HttpFault (Bool × HttpParser × List Byte)}
    (hfree : Free 13 10 l) (hl : lineStep t p l = .ok (.next p'))
    (h : Parses t p' rest res) : Parses t p (l ++ 13 :: 10 :: rest) res := by
  have hl' : lineStep t p ((l ++ 13 :: 10 :: rest).take l.length) = .ok (.next p') := by
    rw [List.take_left]
    exact hl
  refine .next (memmem_line (by decide) hfree rest) hl' ?_
  rw [drop_line]
  exact h

/-- The empty line ends the request. -/
lemma Parses.blank (hp : p.state = .kExpectHeaders) (rest : List Byte) :
    Parses t p (13 :: 10 :: rest) (.ok (true, { p with state := .kGotAll }, rest)) :=
  .last (i := 0) (memmem_line (by decide) free_nil rest) (lineStep_headers hp [])

lemma lineStep_headerLine (hp : p.state = .kExpectHeaders) (h : HeaderLine) :
    lineStep t p h.text = .ok (.next { p with
      httpRequest := { p.httpRequest with headers := h.store p.httpRequest.headers } }) := by
  have hlt : h.field.length ≠ h.text.length := by
    simp only [HeaderLine.text, List.length_append, List.length_cons]
    omega
  rw [lineStep_headers hp, h.findIdx_text, if_pos hlt, h.addHeader_text]

/-- **Header lines and the empty line behind them are read back**, and what follows is left. -/
theorem parses_headers (hs : List HeaderLine) (hp : p.state = .kExpectHeaders)
    (rest : List Byte) :
    Parses t p (unlines 13 10 (hs.map HeaderLine.text ++ [[]]) ++ rest)
      (.ok (true, ⟨.kGotAll, { p.httpRequest with
        headers := hs.foldl HeaderLine.store p.httpRequest.headers }⟩, rest)) := by
  induction hs generalizing p with
  | nil => exact .blank hp rest
  | cons h hs ih =>
      rw [List.map_cons, List.cons_append, unlines_cons, List.append_assoc]
      exact .line h.text_free (lineStep_headerLine hp h) (ih hp)

end Lines

end HttpParser

/-! ### Requests -/

/-- A request as a client writes it. -/
structure RequestText where
  method : Method
  path : List Byte
  query : List Byte
  version : Version
  headers : List HeaderLine
  method_known : method ≠ .kInvalid
  version_known : version ≠ .kUnknown
  space_notMem_path : 32 ∉ path
  question_notMem_path : 63 ∉ path
  path_free : Free 13 10 path
  query_head : ∀ c ∈ query.head?, c = 63
  space_notMem_query : 32 ∉ query
  query_free : Free 13 10 query

namespace RequestText

/-- The request line without its end. -/
def requestLine (r : RequestText) : List Byte :=
  r.method.token ++ 32 :: (r.path ++ r.query ++ 32 :: r.version.token)

/-- The request line, the header lines and the empty line. -/
def text (r : RequestText) : List Byte :=
  unlines 13 10 (r.requestLine :: (r.headers.map HeaderLine.text ++ [[]]))

/-- What the request line says. -/
def request (r : RequestText) : HttpRequest :=
  { HttpRequest.new with
    method := r.method, path := r.path, query := r.query, version := r.version }

/-- The request a new parser has read at the end of the text. -/
def parsed (r : RequestText) (t : ℤ) : HttpRequest :=
  { r.request.setReceiveTime t with headers := r.headers.foldl HeaderLine.store ∅ }

lemma token_free (r : RequestText) :
    Free 13 10 r.method.token ∧ Free 13 10 r.version.token := by
  constructor
  · cases r.method <;> decide
  · cases r.version <;> decide

/-- A request line is one line. -/
lemma requestLine_free (r : RequestText) : Free 13 10 r.requestLine := by
  have htarget : Free 13 10 (r.path ++ r.query) := by
    refine r.path_free.append r.query_free ?_
    rintro y hy rfl
    exact absurd (r.query_head _ hy) (by decide)
  have hrest : Free 13 10 (r.path ++ r.query ++ 32 :: r.version.token) :=
    htarget.append (r.token_free.2.cons (by decide)) (by simp)
  exact r.token_free.1.append (hrest.cons (by decide)) (by simp)

/-- The request line as a line of the grammar. -/
def line (r : RequestText) : RequestLine where
  method := r.method
  target := r.path ++ r.query
  version := r.version
  method_known := r.method_known
  version_known := r.version_known
  space_notMem := by simp [r.space_notMem_path, r.space_notMem_query]

/-- The query begins at the first question mark of the target. -/
lemma findIdx_target (r : RequestText) : (r.path ++ r.query).findIdx (· == 63) = r.path.length := by
  cases hr : r.query with
  | nil =>
      rw [List.append_nil]
      exact findIdx_eq_length_iff.mpr r.question_notMem_path
  | cons c w =>
      obtain rfl : c = 63 := r.query_head c (by rw [hr]; rfl)
      exact findIdx_append_cons r.question_notMem_path w

/-- **The request line is read back.** -/
lemma processRequestLine_text (r : RequestText) :
    HttpParser.processRequestLine HttpRequest.new r.requestLine = .ok (true, r.request) := by
  have hline := HttpParser.processRequestLine_requestLine none r.line
  rw [show r.line.target = r.path ++ r.query from rfl, findIdx_target, List.take_left,
    List.drop_left] at hline
  exact hline

end RequestText

namespace HttpParser

/-- The whole text, from a new parser. -/
lemma parses_text (r : RequestText) (rest : List Byte) (t : ℤ) :
    Parses t HttpParser.new (r.text ++ rest) (.ok (true, ⟨.kGotAll, r.parsed t⟩, rest)) := by
  have hl : lineStep t HttpParser.new r.requestLine =
      .ok (.next ⟨.kExpectHeaders, r.request.setReceiveTime t⟩) := by
    have hline := r.processRequestLine_text
    rw [lineStep_requestLine rfl, show HttpParser.new.httpRequest = HttpRequest.new from rfl, hline]
    rfl
  rw [RequestText.text, unlines_cons, List.append_assoc]
  exact .line r.requestLine_free hl (parses_headers r.headers rfl rest)

/-- A call on a buffer with the text of a request and any bytes behind it. -/
lemma exists_ret_text (r : RequestText) (rest : List Byte) (t : ℤ) (b : ValidBuffer)
    (hb : b.view = r.text ++ rest) :
    ∃ b' : ValidBuffer, b'.view = rest ∧
      parseRuquest HttpParser.new b t = .ret (true, ⟨.kGotAll, r.parsed t⟩, b') := by
  have hparse := parseRuquest_eq (parses_text r rest t) new_reading
  rw [← hb] at hparse
  obtain ⟨b', hret, hview⟩ := parseRuquest_of_view hparse
  exact ⟨b', hview, hret⟩

/-- **Parsing undoes writing.**  A new parser on a buffer with the text of a request and any
bytes behind it returns with the whole request: the method, version, path and query, under
each field the value of its last line, and exactly the bytes behind left in the buffer. -/
theorem parseRuquest_text (r : RequestText) (rest : List Byte) (t : ℤ) (b : ValidBuffer)
    (hb : b.view = r.text ++ rest) :
    ∃ (p : HttpParser) (b' : ValidBuffer),
      parseRuquest HttpParser.new b t = .ret (true, p, b') ∧
      p.gotAll = true ∧
      p.httpRequest.method = r.method ∧
      p.httpRequest.version = r.version ∧
      p.httpRequest.path = r.path ∧
      p.httpRequest.query = r.query ∧
      (∀ field, p.httpRequest.headers[field]? = HeaderLine.lastValue r.headers field) ∧
      b'.view = rest := by
  obtain ⟨b', hview, hret⟩ := exists_ret_text r rest t b hb
  exact ⟨_, b', hret, rfl, rfl, rfl, rfl, rfl, HeaderLine.getElem?_stored r.headers, hview⟩

/-- A request with a query, a field that comes twice, and blanks around its values, in front
of the first bytes of another. -/
theorem parseRuquest_text_twice : ∃ (p : HttpParser) (b b' : ValidBuffer),
    b.view = ascii "GET /a?x=1 HTTP/1.1\r\nHost:one\r\nHost: \ttwo: 2 \r\n\r\nPOST" ∧
    parseRuquest HttpParser.new b 7 = .ret (true, p, b') ∧
    p.gotAll = true ∧
    p.httpRequest.method = .kGet ∧
    p.httpRequest.path = ascii "/a" ∧
    p.httpRequest.query = ascii "?x=1" ∧
    p.httpRequest.headers[ascii "Host"]? = some (ascii "two: 2") ∧
    b'.view = ascii "POST" := by
  let one : HeaderLine := ⟨ascii "Host", [], ascii "one", [], by decide, by decide, by decide,
    by simp [ascii, isspace], by simp [ascii, isspace], by simp, by simp⟩
  let two : HeaderLine := ⟨ascii "Host", ascii " \t", ascii "two: 2", ascii " ", by decide,
    by decide, by decide, by simp [ascii, isspace], by simp [ascii, isspace], by simp [ascii],
    by simp [ascii]⟩
  let r : RequestText := ⟨.kGet, ascii "/a", ascii "?x=1", .kHttp11, [one, two], by decide,
    by decide, by decide, by decide, by decide, by simp [ascii], by decide, by decide⟩
  have htext : r.text ++ ascii "POST" =
      ascii "GET /a?x=1 HTTP/1.1\r\nHost:one\r\nHost: \ttwo: 2 \r\n\r\nPOST" := by decide
  obtain ⟨b, hb⟩ := ValidBuffer.exists_view_of_short (r.text ++ ascii "POST")
    (by rw [htext]; decide)
  obtain ⟨p, b', hret, hgot, hm, -, hpath, hquery, hheaders, hrest⟩ :=
    parseRuquest_text r (ascii "POST") 7 b hb
  exact ⟨p, b, b', hb.trans htext, hret, hgot, hm, hpath, hquery,
    (hheaders (ascii "Host")).trans (by decide), hrest⟩

/-! ### What is taken for a request -/

/-- The lines of a request, put together. -/
lemma free_of_request {first l : List Byte} {hs : List (List Byte)} (hfirst : Free 13 10 first)
    (hhs : ∀ h ∈ hs, Free 13 10 h) (hl : Free 13 10 l) :
    ∀ l' ∈ first :: (hs ++ [l]), Free 13 10 l' := by
  intro l' hl'
  simp only [List.mem_cons, List.mem_append, List.not_mem_nil, or_false] at hl'
  rcases hl' with rfl | hl' | rfl
  · exact hfirst
  · exact hhs l' hl'
  · exact hl

section Completed

variable {t : ℤ} {p p' : HttpParser} {q rest : List Byte} {ok : Bool}

/-- The parser is in front of header lines: it consumed lines with a colon, and then one
without. -/
lemma Parses.completed_headers (h : Parses t p q (.ok (ok, p', rest)))
    (hp : p.state = .kExpectHeaders) (hgot : p'.gotAll = true) :
    ∃ (hs : List (List Byte)) (l : List Byte), (∀ h ∈ hs, Free 13 10 h ∧ 58 ∈ h) ∧
      Free 13 10 l ∧ 58 ∉ l ∧ q = unlines 13 10 (hs ++ [l]) ++ rest := by
  generalize hres : (Except.ok (ok, p', rest) : Except HttpFault _) = res at h
  induction h with
  | @wait p q hm =>
      obtain ⟨-, rfl, -⟩ : ok = true ∧ p' = p ∧ rest = q := by simpa using hres
      simp [gotAll, hp] at hgot
  | @next p p₁ q i res hm hl _ ih =>
      rw [lineStep_headers hp] at hl
      split_ifs at hl with hcolon
      · obtain rfl : _ = p₁ := by simpa using hl
        obtain ⟨hs, l, hhs, hfree, hbare, hq⟩ := ih hp hres
        refine ⟨q.take i :: hs, l, ?_, hfree, hbare, ?_⟩
        · intro h hh
          rcases List.mem_cons.mp hh with rfl | hh
          · exact ⟨free_of_memmem hm, not_not.mp (mt findIdx_eq_length_iff.mpr hcolon)⟩
          · exact hhs h hh
        · rw [List.cons_append, unlines_cons, List.append_assoc, List.cons_append, List.cons_append,
            ← hq]
          exact split_of_memmem hm
      · exact absurd hl (by simp)
  | @last p p₁ q i hm hl =>
      obtain ⟨-, -, rfl⟩ : ok = true ∧ p' = p₁ ∧ rest = q.drop (i + 2) := by simpa using hres
      rw [lineStep_headers hp] at hl
      split_ifs at hl with hcolon
      · exact absurd hl (by simp)
      · refine ⟨[], q.take i, by simp, free_of_memmem hm, ?_, ?_⟩
        · exact findIdx_eq_length_iff.mp (not_not.mp hcolon)
        · simpa using split_of_memmem hm
  | @reject p p₁ q i hm hl =>
      rw [lineStep_headers hp] at hl
      split_ifs at hl <;> exact absurd hl (by simp)
  | fault _ _ => exact absurd hres (by simp)

/-- A request line that is taken: known method, target and version. -/
def ValidRequestLine (line : List Byte) : Prop :=
  ∃ r, processRequestLine HttpRequest.new line = .ok (true, r)

/-- The first line of a new parser goes on exactly if it is a valid request line. -/
lemma validRequestLine_of_next {line : List Byte}
    (h : lineStep t HttpParser.new line = .ok (.next p)) : ValidRequestLine line := by
  obtain ⟨-, r, hr, -⟩ | ⟨hs, -⟩ := lineStep_next_cases new_reading h
  · exact ⟨r, hr⟩
  · exact absurd hs (by decide)

/-- **What a new parser has read when it got all of a request**: a request line, lines with
a colon, and one without. -/
lemma Parses.completed (h : Parses t HttpParser.new q (.ok (ok, p', rest)))
    (hgot : p'.gotAll = true) :
    ∃ (first : List Byte) (hs : List (List Byte)) (l : List Byte), Free 13 10 first ∧
      ValidRequestLine first ∧ (∀ h ∈ hs, Free 13 10 h ∧ 58 ∈ h) ∧ Free 13 10 l ∧ 58 ∉ l ∧
      q = unlines 13 10 (first :: (hs ++ [l])) ++ rest := by
  cases h with
  | wait hm => exact absurd hgot (by decide)
  | @next _ p₁ _ i _ hm hl h =>
      obtain ⟨hs, l, hhs, hfree, hbare, hq⟩ :=
        h.completed_headers (state_of_lineStep_next new_reading hl) hgot
      refine ⟨q.take i, hs, l, free_of_memmem hm, validRequestLine_of_next hl, hhs, hfree, hbare,
        ?_⟩
      rw [unlines_cons, List.append_assoc, List.cons_append, List.cons_append, ← hq]
      exact split_of_memmem hm
  | last hm hl =>
      exact absurd (lineStep_last_cases new_reading hl).1 (by decide)
  | reject hm hl =>
      obtain ⟨-, hs, -⟩ := state_of_lineStep_reject new_reading hl
      simp [gotAll, hs] at hgot

/-- The parser is in front of header lines and did not get all of the request: every complete
line has a colon. -/
lemma Parses.colon_of_waiting (h : Parses t p q (.ok (ok, p', rest)))
    (hp : p.state = .kExpectHeaders) (hgot : p'.gotAll = false) : ∀ l ∈ lines 13 10 q, 58 ∈ l := by
  generalize hres : (Except.ok (ok, p', rest) : Except HttpFault _) = res at h
  induction h with
  | @wait p q hm =>
      rw [lines_of_none hm]
      simp
  | @next p p₁ q i res hm hl _ ih =>
      rw [lineStep_headers hp] at hl
      split_ifs at hl with hcolon
      · obtain rfl : _ = p₁ := by simpa using hl
        rw [lines_of_some hm]
        intro l hl'
        rcases List.mem_cons.mp hl' with rfl | hl'
        · exact not_not.mp (mt findIdx_eq_length_iff.mpr hcolon)
        · exact ih hp hres l hl'
      · exact absurd hl (by simp)
  | @last p p₁ q i hm hl =>
      obtain ⟨-, rfl, -⟩ : ok = true ∧ p' = p₁ ∧ rest = q.drop (i + 2) := by simpa using hres
      simp [gotAll, state_of_lineStep_last (Or.inr hp) hl] at hgot
  | @reject p p₁ q i hm hl =>
      rw [lineStep_headers hp] at hl
      split_ifs at hl <;> exact absurd hl (by simp)
  | fault _ _ => exact absurd hres (by simp)

/-- The bytes begin with a valid request line and have a line without a colon behind it. -/
def HoldsRequest (q : List Byte) : Prop :=
  ∃ first ls, lines 13 10 q = first :: ls ∧ ValidRequestLine first ∧ ∃ l ∈ ls, 58 ∉ l

/-- **The bytes from which a new parser gets all of a request.** -/
theorem Parses.gotAll_iff (h : Parses t HttpParser.new q (.ok (ok, p', rest))) :
    p'.gotAll = true ↔ HoldsRequest q := by
  constructor
  · intro hgot
    obtain ⟨first, hs, l, hfirst, hvalid, hhs, hl, hcolon, rfl⟩ := h.completed hgot
    refine ⟨first, hs ++ [l] ++ lines 13 10 rest, ?_, hvalid, l, by simp, hcolon⟩
    exact lines_unlines (by decide) (free_of_request hfirst (fun h hh => (hhs h hh).1) hl) rest
  · rintro ⟨first, ls, hlines, hvalid, l, hl, hcolon⟩
    by_contra hgot
    rw [Bool.not_eq_true] at hgot
    cases h with
    | wait hm =>
        rw [lines_of_none hm] at hlines
        exact absurd hlines (by simp)
    | @next _ p₁ _ i _ hm hl' h =>
        rw [lines_of_some hm, List.cons.injEq] at hlines
        have hall := h.colon_of_waiting (state_of_lineStep_next new_reading hl') hgot
        exact hcolon (hall l (hlines.2 ▸ hl))
    | last hm hl' => simp [gotAll, state_of_lineStep_last new_reading hl'] at hgot
    | reject hm hl' =>
        rw [lines_of_some hm, List.cons.injEq] at hlines
        obtain ⟨-, -, hrej⟩ := state_of_lineStep_reject new_reading hl'
        obtain ⟨r, hr⟩ := hvalid
        rw [← hlines.1] at hr
        exact absurd (hrej.symm.trans hr) (by simp)

end Completed

/-- A request that ends at its first empty line: every header line in front of it that is
not empty has a colon. -/
def CompleteRequest (consumed : List Byte) : Prop :=
  ∃ (first : List Byte) (hs : List (List Byte)), Free 13 10 first ∧
    (∀ h ∈ hs, Free 13 10 h ∧ (h ≠ [] → 58 ∈ h)) ∧
    consumed = unlines 13 10 (first :: (hs ++ [[]]))

/-- The first line behind the request line that has no colon. -/
def bareLine (input : List Byte) : Option (List Byte) :=
  (lines 13 10 input).tail.find? fun l => 58 ∉ l

/-- What was consumed, and where it ended. -/
lemma Parses.complete_iff {t : ℤ} {p' : HttpParser} {q rest : List Byte} {ok : Bool}
    (h : Parses t HttpParser.new q (.ok (ok, p', rest))) (hgot : p'.gotAll = true) :
    ∃ consumed, consumed ++ rest = q ∧ (CompleteRequest consumed ↔ bareLine q = some []) := by
  obtain ⟨first, hs, l, hfirst, -, hhs, hl, hcolon, hq⟩ := h.completed hgot
  have hfree := free_of_request hfirst (fun h hh => (hhs h hh).1) hl
  refine ⟨unlines 13 10 (first :: (hs ++ [l])), hq.symm, ?_⟩
  have hbare : bareLine q = some l := by
    have hnone : hs.find? (fun l => 58 ∉ l) = none := by
      rw [List.find?_eq_none]
      intro h hh
      simpa using (hhs h hh).2
    rw [bareLine, hq, lines_unlines (by decide) hfree, List.cons_append, List.tail_cons,
      List.append_assoc, List.find?_append, hnone, List.singleton_append,
      List.find?_cons_of_pos (by simpa using hcolon)]
    rfl
  rw [hbare, Option.some.injEq]
  constructor
  · rintro ⟨first', hs', hfirst', hhs', heq⟩
    have hfree' := free_of_request hfirst' (fun h hh => (hhs' h hh).1) free_nil
    -- the same text has the same lines, so the last of them is the empty one
    have hlines := unlines_inj (by decide) hfree hfree' heq
    rw [List.cons.injEq] at hlines
    exact List.singleton_inj.mp (List.append_inj' hlines.2 rfl).2
  · rintro rfl
    exact ⟨first, hs, hfirst, fun h hh => ⟨(hhs h hh).1, fun _ => (hhs h hh).2⟩, rfl⟩

/-- Bytes that were left in the buffer are the front of the next chunk. -/
lemma feed_cons_buf (p : HttpParser) (buf chunk : List Byte) (t : ℤ)
    (chunks : List (List Byte × ℤ)) :
    feed ⟨true, p, buf⟩ ((chunk, t) :: chunks) = feed ⟨true, p, []⟩ ((buf ++ chunk, t) :: chunks) ∨
      p.gotAll = true := by
  cases hgot : p.gotAll with
  | true => exact Or.inr rfl
  | false =>
      left
      simp only [feed, Feed.active, hgot, Bool.not_false, Bool.and_self, if_true, List.nil_append]

/-- **A request that was taken is complete if and only if its first line without a colon is
empty.**  For any bytes in any chunks, to a parser that is new or was reset, behind whatever
was left in the buffer: once it has all of a request, the bytes it consumed end at the first
empty line, with a colon in every other header line, exactly if no header line without a
colon stands in front of that line. -/
theorem gotAll_complete_iff (p₀ : HttpParser) (h₀ : p₀ = HttpParser.new ∨ ∃ p, p₀ = reset p)
    (buf : List Byte) (chunks : List (List Byte × ℤ)) (s : Feed)
    (hs : feed ⟨true, p₀, buf⟩ chunks = .ret s) (hgot : s.parser.gotAll = true) :
    ∃ consumed, consumed ++ s.buf = buf ++ (chunks.map Prod.fst).flatten ∧
      (CompleteRequest consumed ↔
        bareLine (buf ++ (chunks.map Prod.fst).flatten) = some []) := by
  obtain rfl : p₀ = HttpParser.new := by
    rcases h₀ with h | ⟨p, h⟩
    · exact h
    · exact h.trans p.reset_eq_new
  cases chunks with
  | nil =>
      obtain rfl : _ = s := by simpa [feed] using hs
      exact absurd hgot Bool.false_ne_true
  | cons c chunks =>
      obtain ⟨chunk, t⟩ := c
      have hfeed := (feed_cons_buf HttpParser.new buf chunk t chunks).resolve_right (by decide)
      obtain ⟨s', hs', htr⟩ := Feed.new_tracks.feed ((buf ++ chunk, t) :: chunks)
      obtain rfl : s' = s := by
        rw [hfeed] at hs
        have := hs'.symm.trans hs
        simpa using this
      obtain ⟨p, hparse, hp⟩ := htr t
      have hall : p.gotAll = true := (gotAll_of_untimed hp).trans hgot
      simpa [List.append_assoc] using hparse.complete_iff hall

/-- A request in two chunks, cut inside a line end, after a reset. -/
theorem gotAll_complete_iff_cut : ∃ (s : Feed) (consumed : List Byte),
    feed ⟨true, HttpParser.new.reset, []⟩
      [(ascii "GET / HTTP/1.1\r\nX: 1\r", 3), (ascii "\n\r\nGET", 5)] = .ret s ∧
    s.parser.gotAll = true ∧
    consumed ++ s.buf = ascii "GET / HTTP/1.1\r\nX: 1\r\n\r\nGET" ∧
    CompleteRequest consumed := by
  obtain ⟨s, hs, hgot⟩ : ∃ s, feed ⟨true, HttpParser.new.reset, []⟩
      [(ascii "GET / HTTP/1.1\r\nX: 1\r", 3), (ascii "\n\r\nGET", 5)] = .ret s ∧
      s.parser.gotAll = true := ⟨_, rfl, rfl⟩
  obtain ⟨consumed, hconsumed, hiff⟩ :=
    gotAll_complete_iff _ (Or.inr ⟨HttpParser.new, rfl⟩) [] _ s hs hgot
  refine ⟨s, consumed, hs, hgot, hconsumed, hiff.mpr ?_⟩
  have hfree : ∀ l ∈ [ascii "GET / HTTP/1.1", ascii "X: 1", []], Free 13 10 l := by decide
  have hlines : lines 13 10 (ascii "GET / HTTP/1.1\r\nX: 1\r\n\r\nGET") =
      [ascii "GET / HTTP/1.1", ascii "X: 1", []] ++ lines 13 10 (ascii "GET") :=
    lines_unlines (by decide) hfree (ascii "GET")
  change (lines 13 10 (ascii "GET / HTTP/1.1\r\nX: 1\r\n\r\nGET")).tail.find? _ = some []
  rw [hlines]
  decide

/-- **A header line without a colon ends a request**: what is behind it is left in the buffer
as the beginning of the next one. -/
theorem colonless_line_completes : ∃ (s : Feed) (consumed : List Byte),
    feed Feed.new [(ascii "GET / HTTP/1.1\r\nfoo\r\nX: 1\r\n\r\n", 0)] = .ret s ∧
    s.parser.gotAll = true ∧
    consumed = ascii "GET / HTTP/1.1\r\nfoo\r\n" ∧
    s.buf = ascii "X: 1\r\n\r\n" ∧
    ¬ CompleteRequest consumed := by
  refine ⟨_, _, rfl, rfl, rfl, rfl, ?_⟩
  rintro ⟨first, hs, hfirst, hhs, heq⟩
  have hfree : ∀ l ∈ [ascii "GET / HTTP/1.1", ascii "foo"], Free 13 10 l := by decide
  have hfree' := free_of_request hfirst (fun h hh => (hhs h hh).1) free_nil
  have hlines := unlines_inj (by decide) hfree hfree' heq
  have hlast : [] ++ [ascii "foo"] = hs ++ [[]] := (List.cons.injEq _ _ _ _ ▸ hlines).2
  exact absurd (List.append_inj' hlast rfl).2 (by decide)

end HttpParser

end Tractor
