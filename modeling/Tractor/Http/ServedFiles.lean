import Tractor.Library.Segments
import Tractor.Http.Grammar
import Tractor.Http.Server

/-!
The files the example server answers with.

`HttpResponse::setBodyByFile` puts the path of the request between a directory and an
extension and opens what comes out, with no look at it.

* `HttpResponse.fileName`: the name that is opened; `HttpResponse.setBodyByFile`, and
  `HttpServerTest.onRequest`, which calls it with the path of the request.
* `resolve`, `Confined`: where a name leads, and that it leads into the directory.
* `StaysInside`: the condition on the path, by its segments.
* `confined_iff`: **the condition is exact.**
* `HttpParser.delivered_iff`: the paths that can come in.
-/

namespace Tractor

open Library

/-! ### Answering with a file -/

/-- What a C function sees of a string: the bytes in front of the first zero. -/
def cString (w : List Byte) : List Byte := w.takeWhile (· ≠ 0)

namespace HttpResponse

/-- The name `setBodyByFile(url)` opens; `open` takes it as a C string. -/
def fileName (url : List Byte) : List Byte :=
  cString (ascii "/tractor/resources" ++ url ++ ascii ".html")

/-- `setBodyByFile(url)`, where `files` is the content of the files that can be opened. -/
def setBodyByFile (files : List Byte → Option (List Byte)) (r : HttpResponse)
    (url : List Byte) : HttpResponse :=
  match files (fileName url) with
  | none => (((r.setStatusCode .k404NotFound).setStatusMessage
      (ascii "Not Found")).setCloseConnection true).setBody []
  | some content => r.setBody content

end HttpResponse

namespace HttpServerTest

/-- What the four branches of `onRequest` begin with. -/
def ok (resp : HttpResponse) (contentType : List Byte) : HttpResponse :=
  (((resp.setStatusCode .k200Ok).setStatusMessage (ascii "OK")).setContentType
    contentType).addHeader (ascii "Server") (ascii "tractor")

/-- `onRequest(req, resp)` of `apps/HttpServer_test.cpp`. -/
def onRequest (files : List Byte → Option (List Byte)) : HttpCallback := fun req resp =>
  if req.path = ascii "/" then
    (ok resp (ascii "text/html")).setBody (ascii
      "<html><head><title>This is title</title></head><body><h1>Hello</h1></body></html>")
  else if req.path = ascii "/hello" then
    (ok resp (ascii "text/plain")).setBody (ascii "hello, world!\n")
  else if req.path = ascii "/login" then
    (ok resp (ascii "text/html")).setBody (ascii
      ("<html><head><title>you put a login request</title></head>" ++
        "<body><h1>Hello</h1></body></html>"))
  else (ok resp (ascii "text/html")).setBodyByFile files req.path

end HttpServerTest

/-! ### Where a name leads -/

/-- The move of a segment of a file name. -/
def segmentMove (seg : List Byte) : Move (List Byte) :=
  if seg = [] ∨ seg = ascii "." then .stay
  else if seg = ascii ".." then .up
  else .down seg

/-- The segments of a name, between the slashes. -/
def segments (name : List Byte) : List (List Byte) := name.splitOn 47

/-- The directories an absolute name leads through, from the root. -/
def resolve (name : List Byte) : List (List Byte) :=
  (Move.walk [] ((segments name).map segmentMove)).reverse

/-- The name lies under `/tractor/resources`. -/
def Confined (name : List Byte) : Prop :=
  [ascii "tractor", ascii "resources"] <+: resolve name

/-- The moves of the name made from `url`, by the segments of `url` itself.  The first of
them is glued to the name of the directory. -/
def urlMoves (url : List Byte) : List (Move (List Byte)) :=
  .down (ascii "tractor") :: ((segments (cString (url ++ ascii ".html"))).modifyHead
    (ascii "resources" ++ ·)).map segmentMove

/-- Some `tractor` segment comes where the walk is at the root, some `resources` segment
behind it where the walk is back in that directory, having never left it, and the rest
never leaves this one. -/
def StaysInside (url : List Byte) : Prop :=
  ∃ (A M B : List (Move (List Byte))) (k : ℕ),
    urlMoves url = A ++ .down (ascii "tractor") :: M ++ .down (ascii "resources") :: B ∧
      Move.depth 0 A = 0 ∧ Move.climb 0 M = some 0 ∧ Move.climb 0 B = some k

/-- The moves of the name that is opened: it begins with a slash, in front of which there is
an empty segment. -/
lemma map_segments_fileName (url : List Byte) :
    (segments (HttpResponse.fileName url)).map segmentMove = .stay :: urlMoves url := by
  have hname : HttpResponse.fileName url = [] ++ 47 :: (ascii "tractor" ++ 47 ::
      (ascii "resources" ++ cString (url ++ ascii ".html"))) := by
    have hzero : ∀ c ∈ ascii "/tractor/resources", decide (c ≠ 0) = true := by simp [ascii]
    have hdirectory : ascii "/tractor/resources" =
        [] ++ 47 :: (ascii "tractor" ++ 47 :: ascii "resources") := by decide
    calc HttpResponse.fileName url
        = cString (ascii "/tractor/resources" ++ (url ++ ascii ".html")) := by
          rw [HttpResponse.fileName, List.append_assoc]
      _ = ascii "/tractor/resources" ++ cString (url ++ ascii ".html") :=
          List.takeWhile_append_of_pos hzero
      _ = [] ++ 47 :: (ascii "tractor" ++ 47 ::
            (ascii "resources" ++ cString (url ++ ascii ".html"))) := by
          rw [hdirectory]
          simp only [List.nil_append, List.cons_append, List.append_assoc]
  rw [hname, segments, List.splitOn_append_cons_self_of_not_mem (by simp),
    List.splitOn_append_cons_self_of_not_mem (by decide), splitOn_append (by decide)]
  rfl

/-- **Which names stay inside.**  The name made from `url` lies under the directory exactly
if its segments enter the directory at some point and do not leave it any more. -/
theorem confined_iff (url : List Byte) :
    Confined (HttpResponse.fileName url) ↔ StaysInside url := by
  have hbase : [ascii "tractor", ascii "resources"]
      = [ascii "resources", ascii "tractor"].reverse := rfl
  rw [Confined, resolve, map_segments_fileName, hbase, List.reverse_prefix, Move.walk,
    List.foldl_cons, Move.step, ← Move.walk, Move.suffix_walk_iff]
  constructor
  · rintro ⟨A', B, k, hmoves, hA', hB⟩
    obtain ⟨A, M, rfl, hA, hM⟩ := Move.walk_eq_cons_iff.mp hA'
    exact ⟨A, M, B, k, hmoves, (Move.walk_eq_nil_iff A).mp hA, hM, hB⟩
  · rintro ⟨A, M, B, k, hmoves, hA, hM, hB⟩
    refine ⟨_, B, k, hmoves, Move.walk_eq_cons_iff.mpr ⟨A, M, rfl, ?_, hM⟩, hB⟩
    exact (Move.walk_eq_nil_iff A).mpr hA

/-! ### The paths a parser delivers -/

namespace HttpParser

section Delivered

variable {t : ℤ} {p p' : HttpParser} {q rest : List Byte} {ok : Bool}

/-- Some chunks make a new parser deliver a request with this path. -/
def Delivered (path : List Byte) : Prop :=
  ∃ (chunks : List (List Byte × ℤ)) (s : Feed), feed Feed.new chunks = .ret s ∧
    s.parser.gotAll = true ∧ s.parser.httpRequest.path = path

/-- Header lines leave the path alone. -/
lemma Parses.path_of_headers (h : Parses t p q (.ok (ok, p', rest)))
    (hp : p.state = .kExpectHeaders) : p'.httpRequest.path = p.httpRequest.path := by
  generalize hres : (Except.ok (ok, p', rest) : Except HttpFault _) = res at h
  induction h with
  | wait _ =>
      obtain ⟨-, rfl, -⟩ := by simpa using hres
      rfl
  | next _ hl _ ih =>
      obtain ⟨hs, -⟩ | ⟨-, -, rfl⟩ := lineStep_next_cases (Or.inr hp) hl
      · exact absurd (hp.symm.trans hs) (by simp)
      · exact ih hp hres
  | last _ hl =>
      obtain ⟨-, rfl, -⟩ := by simpa using hres
      obtain ⟨-, -, rfl⟩ := lineStep_last_cases (Or.inr hp) hl
      rfl
  | reject _ hl =>
      obtain ⟨hs, -⟩ := state_of_lineStep_reject (Or.inr hp) hl
      exact absurd (hp.symm.trans hs) (by simp)
  | fault _ _ => exact absurd hres (by simp)

/-- The path of a request line that is taken is a part of the line between spaces, in front
of the first question mark. -/
lemma path_of_lineStep_next {line : List Byte} (hline : Free 13 10 line)
    (h : lineStep t HttpParser.new line = .ok (.next p)) :
    32 ∉ p.httpRequest.path ∧ 63 ∉ p.httpRequest.path ∧ Free 13 10 p.httpRequest.path := by
  obtain ⟨-, r, hr, rfl⟩ | ⟨hs, -⟩ := lineStep_next_cases new_reading h
  · obtain ⟨l, rfl⟩ := exists_requestLine (t := none) hr
    have hr' := processRequestLine_requestLine none l
    obtain rfl : _ = r := by simpa using hr'.symm.trans hr
    refine ⟨fun hmem => l.space_notMem (List.mem_of_mem_take hmem),
      notMem_take_findIdx l.target, ?_⟩
    have htarget : Free 13 10 l.target := by
      rw [RequestLine.text, List.append_cons, free_append_iff] at hline
      exact (free_append_iff.mp hline.2.1).1
    rw [← List.take_append_drop (l.target.findIdx (· == 63)) l.target] at htarget
    exact (free_append_iff.mp htarget).1
  · exact absurd hs (by decide)

lemma path_of_untimed (h : p.untimed = p'.untimed) : p.httpRequest.path = p'.httpRequest.path :=
  (congrArg (·.httpRequest.path) h : p.untimed.httpRequest.path = p'.untimed.httpRequest.path)

/-- **The paths a parser delivers** are the words without a space, a question mark and a line
end; all other bytes pass, slashes, dots and zeros among them. -/
theorem delivered_iff {path : List Byte} :
    Delivered path ↔ 32 ∉ path ∧ 63 ∉ path ∧ Free 13 10 path := by
  constructor
  · rintro ⟨chunks, ⟨ok, parser, buf⟩, hs, hgot, rfl⟩
    obtain ⟨s', hs', htr⟩ := Feed.new_tracks.feed chunks
    obtain rfl : s' = ⟨ok, parser, buf⟩ := by simpa using hs'.symm.trans hs
    obtain ⟨p, hparse, hp⟩ := htr 0
    rw [← gotAll_of_untimed hp] at hgot
    rw [← path_of_untimed hp]
    dsimp only at hparse
    cases hparse with
    | wait _ => exact absurd hgot (by decide)
    | next hm hl h =>
        rw [h.path_of_headers (state_of_lineStep_next new_reading hl)]
        exact path_of_lineStep_next (free_of_memmem hm) hl
    | last _ hl =>
        exact absurd (lineStep_last_cases new_reading hl).1 (by decide)
    | reject _ hl =>
        obtain ⟨-, hs, -⟩ := state_of_lineStep_reject new_reading hl
        simp [gotAll, hs] at hgot
  · rintro ⟨hspace, hmark, hfree⟩
    let r : RequestText := ⟨.kGet, path, [], .kHttp11, [], by decide, by decide, hspace, hmark,
      hfree, by simp, by simp, free_nil⟩
    have hret := parseRuquest_eq (parses_text r [] 0) new_reading
    rw [List.append_nil] at hret
    refine ⟨[(r.text, 0)], ⟨true, ⟨.kGotAll, r.parsed 0⟩, []⟩, ?_, rfl, rfl⟩
    change feed ⟨true, HttpParser.new, []⟩ [(r.text, 0)] = _
    simp only [feed, Feed.active, List.nil_append, hret, toOutcome]
    rfl

end Delivered

end HttpParser

/-- Two segments up and one down again: the parser delivers the path, and the name leads to
another directory. -/
theorem dot_segments_leave_directory :
    HttpParser.Delivered (ascii "/../../home/x") ∧
      HttpResponse.fileName (ascii "/../../home/x")
        = ascii "/tractor/resources/../../home/x.html" ∧
      resolve (ascii "/tractor/resources/../../home/x.html") = [ascii "home", ascii "x.html"] ∧
      ¬ Confined (HttpResponse.fileName (ascii "/../../home/x")) := by
  have hname : HttpResponse.fileName (ascii "/../../home/x")
      = ascii "/tractor/resources/../../home/x.html" := by decide +kernel
  have hleads : resolve (ascii "/tractor/resources/../../home/x.html")
      = [ascii "home", ascii "x.html"] := by decide +kernel
  refine ⟨HttpParser.delivered_iff.mpr (by decide), hname, hleads, ?_⟩
  rw [hname, Confined, hleads]
  decide

end Tractor
