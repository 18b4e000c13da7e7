import Tractor.Library.Lines
import Tractor.Http.Parser

/-!
The request line: which lines `processRequestLine` accepts, and what it makes of them.

* `Method.token`, `Version.token`: the tokens of the line; `methodOf` and `versionOf` read
  them back.
* `RequestLine`: a line of the grammar, with what keeps its parts apart as fields.
* `processTarget_eq`, `processRequestLine_eq`: the function on a line that is split at its
  spaces.
* `processRequestLine_grammar`: **exactly the lines of the grammar are accepted**, and the
  target is split at its first question mark.
-/

namespace Tractor

open Library

/-- The token of a method, as `setMethod` compares it. -/
def Method.token : Method → List Byte
  | kInvalid => []
  | kGet => ascii "GET"
  | kPost => ascii "POST"
  | kHead => ascii "HEAD"
  | kPut => ascii "PUT"
  | kDelete => ascii "DELETE"
  | kTrace => ascii "TRACE"
  | kOptions => ascii "OPTIONS"

/-- The token of a version. -/
def Version.token : Version → List Byte
  | kUnknown => []
  | kHttp10 => ascii "HTTP/1.0"
  | kHttp11 => ascii "HTTP/1.1"

/-- The version a token names. -/
def versionOf (v : List Byte) : Version :=
  if v = ascii "HTTP/1.1" then .kHttp11 else if v = ascii "HTTP/1.0" then .kHttp10 else .kUnknown

lemma methodOf_token (m : Method) : HttpRequest.methodOf m.token = m := by
  cases m <;> decide

lemma token_methodOf {w : List Byte} (h : HttpRequest.methodOf w ≠ .kInvalid) :
    (HttpRequest.methodOf w).token = w := by
  unfold HttpRequest.methodOf at h ⊢
  split_ifs at h ⊢ with h₁ h₂ h₃ h₄ h₅ h₆ h₇
  · exact h₁.symm
  · exact h₂.symm
  · exact h₃.symm
  · exact h₄.symm
  · exact h₅.symm
  · exact h₆.symm
  · exact h₇.symm
  · exact absurd rfl h

lemma versionOf_token (v : Version) : versionOf v.token = v := by
  cases v <;> decide

lemma token_versionOf {w : List Byte} (h : versionOf w ≠ .kUnknown) : (versionOf w).token = w := by
  unfold versionOf at h ⊢
  split_ifs at h ⊢ with h₁ h₂
  · exact h₁.symm
  · exact h₂.symm
  · exact absurd rfl h

lemma space_notMem_token (m : Method) : 32 ∉ m.token := by
  cases m <;> decide

/-- A line of the grammar: a method, a target without a space and a version. -/
structure RequestLine where
  method : Method
  target : List Byte
  version : Version
  method_known : method ≠ .kInvalid
  version_known : version ≠ .kUnknown
  space_notMem : 32 ∉ target

/-- The bytes of the line, without its end. -/
def RequestLine.text (l : RequestLine) : List Byte :=
  l.method.token ++ 32 :: (l.target ++ 32 :: l.version.token)

namespace HttpParser

/-! ### The parts of a line -/

/-- The version is checked by its length and its first seven bytes, and then by the last. -/
lemma version_eq (v : List Byte) (r : HttpRequest) :
    (if v.length = 8 ∧ v.take 7 = ascii "HTTP/1." then
        if v.drop 7 = ascii "1" then (true, r.setVersion .kHttp11)
        else if v.drop 7 = ascii "0" then (true, r.setVersion .kHttp10)
        else (false, r)
      else (false, r)) =
      if versionOf v = .kUnknown then (false, r) else (true, r.setVersion (versionOf v)) := by
  have hsplit : ∀ last : List Byte, v = ascii "HTTP/1." ++ last ∧ last.length = 1 ↔
      (v.length = 8 ∧ v.take 7 = ascii "HTTP/1.") ∧ v.drop 7 = last := by
    intro last
    constructor
    · rintro ⟨rfl, hlast⟩
      refine ⟨⟨?_, ?_⟩, ?_⟩
      · rw [List.length_append, hlast]
        rfl
      · exact List.take_left' rfl
      · exact List.drop_left' rfl
    · rintro ⟨⟨hlen, htake⟩, rfl⟩
      refine ⟨?_, ?_⟩
      · rw [← htake, List.take_append_drop]
      · rw [List.length_drop, hlen]
  have hone : v = ascii "HTTP/1.1" ↔
      (v.length = 8 ∧ v.take 7 = ascii "HTTP/1.") ∧ v.drop 7 = ascii "1" := by
    rw [← hsplit, show ascii "HTTP/1.1" = ascii "HTTP/1." ++ ascii "1" from by decide]
    exact (and_iff_left (by decide)).symm
  have hzero : v = ascii "HTTP/1.0" ↔
      (v.length = 8 ∧ v.take 7 = ascii "HTTP/1.") ∧ v.drop 7 = ascii "0" := by
    rw [← hsplit, show ascii "HTTP/1.0" = ascii "HTTP/1." ++ ascii "0" from by decide]
    exact (and_iff_left (by decide)).symm
  unfold versionOf
  by_cases hpre : v.length = 8 ∧ v.take 7 = ascii "HTTP/1."
  · rw [if_pos hpre]
    simp only [hone, hzero, hpre, true_and]
    split_ifs <;> simp_all
  · rw [if_neg hpre]
    simp [hone, hzero, hpre]

/-- The target is cut at its first question mark, if it has one. -/
lemma target_eq {r : HttpRequest} (hr : r.query = []) (target : List Byte) :
    (if target.findIdx (· == 63) ≠ target.length then
        (r.setPath (target.take (target.findIdx (· == 63)))).setQuery
          (target.drop (target.findIdx (· == 63)))
      else r.setPath target) =
      { r with
        path := target.take (target.findIdx (· == 63))
        query := target.drop (target.findIdx (· == 63)) } := by
  by_cases hmark : target.findIdx (· == 63) = target.length
  · rw [if_neg (not_not.mpr hmark), hmark, List.take_length, List.drop_length, ← hr]
    rfl
  · rw [if_pos hmark]
    rfl

/-- Behind the method, on a rest that is split at its first space. -/
lemma processTarget_eq {r : HttpRequest} (hr : r.query = []) {target : List Byte}
    (htarget : 32 ∉ target) (v : List Byte) :
    processTarget r (target ++ 32 :: v) =
      if versionOf v = .kUnknown then
        (false, { r with
          path := target.take (target.findIdx (· == 63))
          query := target.drop (target.findIdx (· == 63)) })
      else
        (true, { r with
          path := target.take (target.findIdx (· == 63))
          query := target.drop (target.findIdx (· == 63))
          version := versionOf v }) := by
  have hlen : target.length ≠ (target ++ 32 :: v).length := by
    simp only [List.length_append, List.length_cons]
    omega
  have hrest : (target ++ 32 :: v).drop (target.length + 1) = v := by
    rw [← List.drop_drop, List.drop_left]
    rfl
  simp only [processTarget]
  rw [findIdx_append_cons htarget, if_pos hlen, List.take_left, hrest, target_eq hr, version_eq]
  rfl

/-- The whole line, on a request without a method, split at its first space. -/
lemma processRequestLine_eq {r : HttpRequest} (hr : r.method = .kInvalid) {w : List Byte}
    (hw : 32 ∉ w) (rest : List Byte) :
    processRequestLine r (w ++ 32 :: rest) =
      if HttpRequest.methodOf w = .kInvalid then .ok (false, r)
      else .ok (processTarget { r with method := HttpRequest.methodOf w } rest) := by
  have hlen : w.length ≠ (w ++ 32 :: rest).length := by
    simp only [List.length_append, List.length_cons]
    omega
  have hrest : (w ++ 32 :: rest).drop (w.length + 1) = rest := by
    rw [← List.drop_drop, List.drop_left]
    rfl
  have hset : r.setMethod w = .ok (decide (HttpRequest.methodOf w ≠ .kInvalid),
      { r with method := HttpRequest.methodOf w }) := by
    rw [HttpRequest.setMethod, check_bind_of hr]
    rfl
  simp only [processRequestLine]
  rw [findIdx_append_cons hw, if_pos hlen, List.take_left, hrest, hset]
  by_cases hm : HttpRequest.methodOf w = .kInvalid
  · have hself : { r with method := HttpRequest.methodOf w } = r := by rw [hm, ← hr]
    rw [if_pos hm, hself, decide_eq_false (not_not.mpr hm)]
    rfl
  · rw [if_neg hm, decide_eq_true hm]
    rfl

/-! ### The grammar -/

/-- A request that is new or was reset, whatever its receive time is. -/
def blank (t : Option ℤ) : HttpRequest := { HttpRequest.new with receiveTime := t }

/-- **What is accepted is a line of the grammar.** -/
lemma exists_requestLine {t : Option ℤ} {line : List Byte} {r : HttpRequest}
    (h : processRequestLine (blank t) line = .ok (true, r)) : ∃ l : RequestLine, line = l.text := by
  have hspace : line.findIdx (· == 32) ≠ line.length := by
    intro hno
    simp only [processRequestLine] at h
    rw [if_neg (not_not.mpr hno)] at h
    simp [pure, Except.pure] at h
  obtain ⟨w, rest, rfl, hw⟩ := split_of_findIdx hspace
  rw [processRequestLine_eq rfl hw] at h
  split_ifs at h with hm
  · simp at h
  · have hspace' : rest.findIdx (· == 32) ≠ rest.length := by
      intro hno
      simp only [processTarget] at h
      rw [if_neg (not_not.mpr hno)] at h
      simp at h
    obtain ⟨target, v, rfl, htarget⟩ := split_of_findIdx hspace'
    rw [processTarget_eq rfl htarget] at h
    split_ifs at h with hv
    · simp at h
    · refine ⟨⟨_, target, _, hm, hv, htarget⟩, ?_⟩
      rw [RequestLine.text, token_methodOf hm, token_versionOf hv]

/-- **A line of the grammar is accepted.** -/
lemma processRequestLine_requestLine (t : Option ℤ) (l : RequestLine) :
    processRequestLine (blank t) l.text = .ok (true, { blank t with
      method := l.method
      path := l.target.take (l.target.findIdx (· == 63))
      query := l.target.drop (l.target.findIdx (· == 63))
      version := l.version }) := by
  rw [RequestLine.text, processRequestLine_eq rfl (space_notMem_token l.method), methodOf_token,
    if_neg l.method_known, processTarget_eq rfl l.space_notMem, versionOf_token,
    if_neg l.version_known]

/-- **`processRequestLine` accepts exactly its grammar.**  On a request that is new or was
reset no line trips an assertion, and it returns true if and only if the line is a known
method, a space, a target without a space, a space and a known version.  Then the method and
the version are those of the line, the path has no question mark, path and query are the
target, and the query is empty or begins with a question mark. -/
theorem processRequestLine_grammar (t : Option ℤ) (line : List Byte) :
    ∃ ok r, processRequestLine (blank t) line = .ok (ok, r) ∧
      (ok = true ↔ ∃ l : RequestLine, line = l.text) ∧
      ∀ l : RequestLine, line = l.text →
        r.method = l.method ∧ r.version = l.version ∧ 63 ∉ r.path ∧
          r.path ++ r.query = l.target ∧ ∀ b ∈ r.query.head?, b = 63 := by
  obtain ⟨⟨ok, r⟩, hr⟩ := processRequestLine_of_invalid (r := blank t) rfl line
  refine ⟨ok, r, hr, ⟨?_, ?_⟩, ?_⟩
  · rintro rfl
    exact exists_requestLine hr
  · rintro ⟨l, rfl⟩
    rw [processRequestLine_requestLine] at hr
    exact (Prod.mk.inj (Except.ok.inj hr)).1.symm
  · rintro l rfl
    rw [processRequestLine_requestLine] at hr
    obtain ⟨-, rfl⟩ := Prod.mk.inj (Except.ok.inj hr)
    refine ⟨rfl, rfl, notMem_take_findIdx l.target, List.take_append_drop _ _, fun b hb => ?_⟩
    rw [List.head?_drop, Option.mem_def, List.getElem?_eq_some_iff] at hb
    obtain ⟨hlt, rfl⟩ := hb
    simpa using List.findIdx_getElem (w := hlt)

end HttpParser

end Tractor
