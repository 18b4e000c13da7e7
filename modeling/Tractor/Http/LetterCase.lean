import Tractor.Http.Grammar
import Tractor.Http.Server

/-!
Letter case and the decision to keep a connection.

Header fields are kept as they were written, the map of headers compares bytes, and so
does `onRequest` with the value it finds: no letter is folded anywhere.  The decision
looks at the lines whose field is `Connection`, so spelled, and at one value of the last
of them.

* `HeaderLine.Recased`, `RequestText.Recased`: two requests that differ in the letter case
  of fields and of the `Connection` value only.
* `RequestText.Decisive`: the header that decides, in the one spelling that counts.
* `closeFlag_iff`: the flag from that header and the version.
* `closeFlag_recased`: **when two such requests get the same flag.**
-/

namespace Tractor

open Library

/-- ASCII letters to lower case. -/
def lower (c : Byte) : Byte := if 65 ≤ c ∧ c ≤ 90 then c + 32 else c

/-- A word with its letter case forgotten. -/
def fold (w : List Byte) : List Byte := w.map lower

/-- The same header line up to the letter case of its field and, for `Connection`, of its
value. -/
structure HeaderLine.Recased (h h' : HeaderLine) : Prop where
  field : fold h.field = fold h'.field
  before : h.before = h'.before
  value : h.value = h'.value ∨
    fold h.field = ascii "connection" ∧ fold h.value = fold h'.value
  after : h.after = h'.after

namespace RequestText

/-- The same request up to the letter case of its fields and of the `Connection` value. -/
structure Recased (r r' : RequestText) : Prop where
  method : r.method = r'.method
  path : r.path = r'.path
  query : r.query = r'.query
  version : r.version = r'.version
  headers : List.Forall₂ HeaderLine.Recased r.headers r'.headers

/-- The value that changes what the version says. -/
def decisiveValue (r : RequestText) : List Byte :=
  if r.version = .kHttp10 then ascii "Keep-Alive" else ascii "close"

/-- The last line whose field is spelled `Connection` has this value, so spelled. -/
def Decisive (r : RequestText) : Prop :=
  HeaderLine.lastValue r.headers (ascii "Connection") = some r.decisiveValue

instance (r : RequestText) : Decidable r.Decisive := inferInstanceAs (Decidable (_ = _))

/-- The lines that are `Connection` lines up to letter case are the same in both. -/
def SameConnection (r r' : RequestText) : Prop :=
  List.Forall₂ (fun h h' => fold h.field = ascii "connection" ∨ fold h'.field = ascii "connection" →
    h.field = h'.field ∧ h.value = h'.value) r.headers r'.headers

end RequestText

namespace HeaderLine

/-- Lines that agree on whether they have the field, and on its value, have the same last
value. -/
lemma lastValue_congr {field : List Byte} {hs hs' : List HeaderLine}
    (h : List.Forall₂ (fun h h' => (h.field = field ↔ h'.field = field) ∧
      (h.field = field → h.value = h'.value)) hs hs') :
    lastValue hs field = lastValue hs' field := by
  have hvalues : (hs.filter fun h => h.field = field).map value
      = (hs'.filter fun h => h.field = field).map value := by
    induction h with
    | nil => rfl
    | @cons h h' hs hs' hh _ ih =>
        obtain ⟨hfield, hvalue⟩ := hh
        by_cases hf : h.field = field
        · rw [List.filter_cons_of_pos (by simpa using hf),
            List.filter_cons_of_pos (by simpa using hfield.mp hf), List.map_cons, List.map_cons,
            hvalue hf, ih]
        · rw [List.filter_cons_of_neg (by simpa using hf),
            List.filter_cons_of_neg (by simpa using mt hfield.mpr hf), ih]
  rw [lastValue, lastValue, ← List.getLast?_map, ← List.getLast?_map, hvalues]

end HeaderLine

lemma RequestText.SameConnection.lastValue_eq {r r' : RequestText} (h : r.SameConnection r') :
    HeaderLine.lastValue r.headers (ascii "Connection")
      = HeaderLine.lastValue r'.headers (ascii "Connection") := by
  have hfold : fold (ascii "Connection") = ascii "connection" := by decide
  refine HeaderLine.lastValue_congr (List.Forall₂.imp ?_ h)
  intro l l' hl
  have hleft : l.field = ascii "Connection" → l.field = l'.field ∧ l.value = l'.value := by
    intro hf
    exact hl (Or.inl (by rw [hf, hfold]))
  have hright : l'.field = ascii "Connection" → l.field = l'.field ∧ l.value = l'.value := by
    intro hf
    exact hl (Or.inr (by rw [hf, hfold]))
  exact ⟨⟨fun hf => (hleft hf).1.symm.trans hf, fun hf => (hright hf).1.trans hf⟩,
    fun hf => (hleft hf).2⟩

namespace HttpSession

lemma getD_nil_eq_iff {v : Option (List Byte)} {w : List Byte} (hw : w ≠ []) :
    v.getD [] = w ↔ v = some w := by
  cases v with
  | none => simpa using hw.symm
  | some x => simp

/-- **The flag of a request that was read.**  HTTP/1.1 closes for the decisive header, and
HTTP/1.0 without it. -/
lemma closeFlag_iff (r : RequestText) (t : ℤ) :
    closeFlag (r.parsed t) = true ↔ (r.Decisive ↔ r.version ≠ .kHttp10) := by
  have hget : ∀ w ≠ [], (r.parsed t).getHeader (ascii "Connection") = w ↔
      HeaderLine.lastValue r.headers (ascii "Connection") = some w := by
    intro w hw
    rw [HttpRequest.getHeader, RequestText.parsed, HeaderLine.getElem?_stored, getD_nil_eq_iff hw]
  have hclose := hget (ascii "close") (by decide)
  have hkeep := hget (ascii "Keep-Alive") (by decide)
  have hversion : (r.parsed t).version = r.version := rfl
  rw [closeFlag, decide_eq_true_iff, hversion, RequestText.Decisive, RequestText.decisiveValue]
  by_cases hv : r.version = .kHttp10
  · -- the other value is not `Keep-Alive`, so it changes nothing
    simp only [hv, if_true, true_and, ne_eq, hclose, hkeep, not_true_eq_false, iff_false]
    refine or_iff_right_of_imp fun h => ?_
    rw [h]
    decide
  · simp only [hv, if_false, false_and, or_false, hclose, ne_eq, not_false_eq_true, iff_true]

end HttpSession

namespace HttpParser

/-- **When letter case decides.**  Two requests that differ in the letter case of their
fields and of the `Connection` value only are read to their ends, and get the same flag
exactly if both or neither have the decisive header in the spelling the code compares with;
so they do if their `Connection` lines are the same, whatever the case of other fields. -/
theorem closeFlag_recased {r r' : RequestText} (h : r.Recased r') (rest rest' : List Byte)
    (t t' : ℤ) (b b' : ValidBuffer) (hb : b.view = r.text ++ rest)
    (hb' : b'.view = r'.text ++ rest') :
    ∃ (p p' : HttpParser) (c c' : ValidBuffer),
      parseRuquest HttpParser.new b t = .ret (true, p, c) ∧ p.gotAll = true ∧
      parseRuquest HttpParser.new b' t' = .ret (true, p', c') ∧ p'.gotAll = true ∧
      (HttpSession.closeFlag p.httpRequest = HttpSession.closeFlag p'.httpRequest ↔
        (r.Decisive ↔ r'.Decisive)) ∧
      (r.SameConnection r' →
        HttpSession.closeFlag p.httpRequest = HttpSession.closeFlag p'.httpRequest) := by
  obtain ⟨c, -, hret⟩ := exists_ret_text r rest t b hb
  obtain ⟨c', -, hret'⟩ := exists_ret_text r' rest' t' b' hb'
  refine ⟨_, _, c, c', hret, rfl, hret', rfl, ?_⟩
  have hiff : HttpSession.closeFlag (r.parsed t) = HttpSession.closeFlag (r'.parsed t') ↔
      (r.Decisive ↔ r'.Decisive) := by
    rw [Bool.eq_iff_iff, HttpSession.closeFlag_iff, HttpSession.closeFlag_iff, h.version]
    tauto
  refine ⟨hiff, fun hsame => hiff.mpr ?_⟩
  rw [RequestText.Decisive, RequestText.Decisive, hsame.lastValue_eq, RequestText.decisiveValue,
    RequestText.decisiveValue, h.version]

/-- Another case in a field that is not `Connection`. -/
theorem closeFlag_recased_host : ∃ (p p' : HttpParser) (b b' c c' : ValidBuffer),
    b.view = ascii "GET / HTTP/1.1\r\nHost: a\r\nConnection: close\r\n\r\n" ∧
    b'.view = ascii "GET / HTTP/1.1\r\nHOST: a\r\nConnection: close\r\n\r\n" ∧
    parseRuquest HttpParser.new b 5 = .ret (true, p, c) ∧
    parseRuquest HttpParser.new b' 6 = .ret (true, p', c') ∧
    HttpSession.closeFlag p.httpRequest = HttpSession.closeFlag p'.httpRequest := by
  let host : HeaderLine := ⟨ascii "Host", ascii " ", ascii "a", [], by decide, by decide,
    by decide, by simp [ascii, isspace], by simp [ascii, isspace], by simp [ascii], by simp⟩
  let host' : HeaderLine := ⟨ascii "HOST", ascii " ", ascii "a", [], by decide, by decide,
    by decide, by simp [ascii, isspace], by simp [ascii, isspace], by simp [ascii], by simp⟩
  let close : HeaderLine := ⟨ascii "Connection", ascii " ", ascii "close", [], by decide,
    by decide, by decide, by simp [ascii, isspace], by simp [ascii, isspace], by simp [ascii],
    by simp⟩
  let r : RequestText := ⟨.kGet, ascii "/", [], .kHttp11, [host, close], by decide,
    by decide, by decide, by decide, by decide, by simp, by decide, by decide⟩
  let r' : RequestText := ⟨.kGet, ascii "/", [], .kHttp11, [host', close], by decide,
    by decide, by decide, by decide, by decide, by simp, by decide, by decide⟩
  have hrecased : r.Recased r' := by
    refine ⟨rfl, rfl, rfl, rfl, ?_⟩
    exact .cons ⟨by decide, rfl, Or.inl rfl, rfl⟩ (.cons ⟨rfl, rfl, Or.inl rfl, rfl⟩ .nil)
  have hsame : r.SameConnection r' := by
    refine .cons (fun h => absurd h ?_) (.cons (fun _ => ⟨rfl, rfl⟩) .nil)
    decide
  have htext : r.text ++ [] = ascii "GET / HTTP/1.1\r\nHost: a\r\nConnection: close\r\n\r\n" := by
    decide
  have htext' : r'.text ++ []
      = ascii "GET / HTTP/1.1\r\nHOST: a\r\nConnection: close\r\n\r\n" := by
    decide
  obtain ⟨b, hb⟩ := ValidBuffer.exists_view_of_short (r.text ++ []) (by rw [htext]; decide)
  obtain ⟨b', hb'⟩ := ValidBuffer.exists_view_of_short (r'.text ++ []) (by rw [htext']; decide)
  obtain ⟨p, p', c, c', hret, -, hret', -, -, hflag⟩ :=
    closeFlag_recased hrecased [] [] 5 6 b b' hb hb'
  exact ⟨p, p', b, b', c, c', hb.trans htext, hb'.trans htext', hret, hret', hflag hsame⟩

/-- The same header with a small letter in its field is another header: one request closes
the connection, the other keeps it. -/
theorem small_letter_keeps_connection : ∃ (r r' : RequestText) (p p' : HttpParser)
    (b b' c c' : ValidBuffer), r.Recased r' ∧
    b.view = ascii "GET / HTTP/1.1\r\nConnection: close\r\n\r\n" ∧ b.view = r.text ∧
    b'.view = ascii "GET / HTTP/1.1\r\nconnection: close\r\n\r\n" ∧ b'.view = r'.text ∧
    parseRuquest HttpParser.new b 5 = .ret (true, p, c) ∧
    parseRuquest HttpParser.new b' 5 = .ret (true, p', c') ∧
    HttpSession.closeFlag p.httpRequest = true ∧
    HttpSession.closeFlag p'.httpRequest = false := by
  let close : HeaderLine := ⟨ascii "Connection", ascii " ", ascii "close", [], by decide,
    by decide, by decide, by simp [ascii, isspace], by simp [ascii, isspace], by simp [ascii],
    by simp⟩
  let close' : HeaderLine := ⟨ascii "connection", ascii " ", ascii "close", [], by decide,
    by decide, by decide, by simp [ascii, isspace], by simp [ascii, isspace], by simp [ascii],
    by simp⟩
  let r : RequestText := ⟨.kGet, ascii "/", [], .kHttp11, [close], by decide,
    by decide, by decide, by decide, by decide, by simp, by decide, by decide⟩
  let r' : RequestText := ⟨.kGet, ascii "/", [], .kHttp11, [close'], by decide,
    by decide, by decide, by decide, by decide, by simp, by decide, by decide⟩
  have htext : r.text = ascii "GET / HTTP/1.1\r\nConnection: close\r\n\r\n" := by decide
  have htext' : r'.text = ascii "GET / HTTP/1.1\r\nconnection: close\r\n\r\n" := by decide
  obtain ⟨b, hb⟩ := ValidBuffer.exists_view_of_short (r.text) (by rw [htext]; decide)
  obtain ⟨b', hb'⟩ := ValidBuffer.exists_view_of_short (r'.text) (by rw [htext']; decide)
  obtain ⟨c, -, hret⟩ := exists_ret_text r [] 5 b (by rw [hb, List.append_nil])
  obtain ⟨c', -, hret'⟩ := exists_ret_text r' [] 5 b' (by rw [hb', List.append_nil])
  refine ⟨r, r', _, _, b, b', c, c', ⟨rfl, rfl, rfl, rfl, ?_⟩, hb.trans htext, hb,
    hb'.trans htext', hb', hret, hret', ?_, ?_⟩
  · exact .cons ⟨by decide, rfl, Or.inl rfl, rfl⟩ .nil
  · exact (HttpSession.closeFlag_iff r 5).mpr (by decide)
  · rw [← Bool.not_eq_true, HttpSession.closeFlag_iff]
    decide

end HttpParser

end Tractor
