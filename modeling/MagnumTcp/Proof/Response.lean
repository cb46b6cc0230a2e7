import MagnumTcp.Lib.Lines
import MagnumTcp.Proof.Service

namespace MagnumTcp.Tcp

/-! ## The reader -/

def version : Bytes := ascii "HTTP/1.1 "
def contentLength : Bytes := ascii "Content-Length: "

def field (name : Bytes) (lines : List Bytes) : Option Bytes :=
  (lines.find? fun line => name.isPrefixOf line).map fun line => line.drop name.length

def isDecimal (digits : Bytes) : Bool := digits.all fun d => 48#8 ≤ d && d ≤ 57#8

def decimal (digits : Bytes) : Nat := digits.foldl (fun n d => 10 * n + (d.toNat - 48)) 0

/-- Status, body and what stands behind the response. -/
def readResponse (raw : Bytes) : Option (Bytes × Bytes × Bytes) :=
  (Lines.read 0x0d#8 0x0a#8 [] raw).bind fun head =>
    (field version (head.1.take 1)).bind fun status =>
      (field contentLength (head.1.drop 1)).bind fun digits =>
        if isDecimal digits ∧ decimal digits ≤ head.2.length then
          some (status, head.2.take (decimal digits), head.2.drop (decimal digits))
        else none

variable {raw status body rest more : Bytes}

theorem digit_range {c : Char} (digit : c.isDigit = true) :
    48 ≤ c.toNat ∧ c.toNat ≤ 57 ∧ (BitVec.ofNat 8 c.toNat).toNat = c.toNat := by
  have range : 48 ≤ c.toNat ∧ c.toNat ≤ 57 := by
    simpa [Char.isDigit, UInt32.le_iff_toNat_le] using digit
  exact ⟨range.1, range.2, Nat.mod_eq_of_lt (by omega)⟩

theorem foldl_digits {digits : List Char} (all : ∀ c ∈ digits, c.isDigit = true) (n : Nat) :
    (digits.map fun c => BitVec.ofNat 8 c.toNat).foldl (fun n d => 10 * n + (d.toNat - 48)) n =
      Nat.ofDigitChars 10 digits n := by
  induction digits generalizing n with
  | nil => rfl
  | cons c digits ih =>
      have byte := (digit_range (all c List.mem_cons_self)).2.2
      rw [List.map_cons, List.foldl_cons, byte, ih fun c later => all c (List.mem_cons_of_mem _ later)]
      rfl

theorem decimal_digits (n : Nat) :
    isDecimal (ascii (toString n)) = true ∧ decimal (ascii (toString n)) = n := by
  have text : ascii (toString n) = (Nat.toDigits 10 n).map fun c => BitVec.ofNat 8 c.toNat := by
    simp [ascii]
  have all : ∀ c ∈ Nat.toDigits 10 n, c.isDigit = true :=
    fun c member => Nat.isDigit_of_mem_toDigits (by omega) (by omega) member
  rw [text]
  constructor
  · rw [isDecimal, List.all_map, List.all_eq_true]
    intro c member
    obtain ⟨low, high, byte⟩ := digit_range (all c member)
    have value : (48#8).toNat = 48 ∧ (57#8).toNat = 57 := ⟨rfl, rfl⟩
    simp only [Function.comp_apply, Bool.and_eq_true, decide_eq_true_eq, BitVec.le_def]
    omega
  · exact (foldl_digits all 0).trans Nat.ofDigitChars_ten_toDigits

def responseLines (status body : Bytes) : List Bytes :=
  [version ++ status, ascii "Content-Type: text/plain", contentLength ++ ascii (toString body.length),
    ascii "Connection: close"]

theorem httpResponse_lines (status body : Bytes) :
    httpResponse status body = Lines.write 0x0d#8 0x0a#8 (responseLines status body) ++ body := by
  have first : ascii "\r\nContent-Type: text/plain\r\nContent-Length: " =
      [0x0d#8, 0x0a#8] ++ ascii "Content-Type: text/plain" ++ [0x0d#8, 0x0a#8] ++ contentLength := by decide
  have last : ascii "\r\nConnection: close\r\n\r\n" =
      [0x0d#8, 0x0a#8] ++ ascii "Connection: close" ++ [0x0d#8, 0x0a#8] ++ [0x0d#8, 0x0a#8] := by decide
  unfold httpResponse Lines.write responseLines
  rw [first, last]
  simp only [List.flatMap_cons, List.flatMap_nil, List.append_assoc, List.append_nil, version]

theorem readResponse_httpResponse (free : 0x0d#8 ∉ status) (body more : Bytes) :
    readResponse (httpResponse status body ++ more) = some (status, body, more) := by
  have filled : ∀ line ∈ responseLines status body, line ≠ [] ∧ 0x0d#8 ∉ line := by
    have plain : 0x0d#8 ∉ version ∧ 0x0d#8 ∉ contentLength ∧
        0x0d#8 ∉ ascii "Content-Type: text/plain" ∧ 0x0d#8 ∉ ascii "Connection: close" := by decide
    obtain ⟨line₁, line₃, line₂, line₄⟩ := plain
    have length := cr_notMem_decimal body.length
    intro line member
    simp only [responseLines, List.mem_cons, List.not_mem_nil, or_false] at member
    rcases member with rfl | rfl | rfl | rfl
    · exact ⟨by simp [version, ascii], fun listed => (List.mem_append.mp listed).elim line₁ free⟩
    · exact ⟨by simp [ascii], line₂⟩
    · exact ⟨by simp [contentLength, ascii], fun listed => (List.mem_append.mp listed).elim line₃ length⟩
    · exact ⟨by simp [ascii], line₄⟩
  obtain ⟨digits, value⟩ := decimal_digits body.length
  have first : field version ((responseLines status body).take 1) = some status := by
    rw [responseLines, List.take_succ_cons, field,
      List.find?_cons_of_pos (List.isPrefixOf_iff_prefix.mpr (List.prefix_append _ _))]
    simp
  have other : contentLength.isPrefixOf (ascii "Content-Type: text/plain") = false := by decide
  have third : field contentLength ((responseLines status body).drop 1) =
      some (ascii (toString body.length)) := by
    rw [responseLines, List.drop_succ_cons, List.drop_zero, field,
      List.find?_cons_of_neg (by simp [other]),
      List.find?_cons_of_pos (List.isPrefixOf_iff_prefix.mpr (List.prefix_append _ _))]
    simp
  rw [readResponse, httpResponse_lines, List.append_assoc, Lines.read_write filled, Option.bind_some, first,
    Option.bind_some, third, Option.bind_some, value, if_pos ⟨digits, by simp⟩]
  simp

theorem readResponse_append (found : readResponse raw = some (status, body, rest)) (more : Bytes) :
    readResponse (raw ++ more) = some (status, body, rest ++ more) := by
  obtain ⟨⟨lines, behind⟩, head, found⟩ := Option.bind_eq_some_iff.mp found
  obtain ⟨line, first, found⟩ := Option.bind_eq_some_iff.mp found
  obtain ⟨digits, length, found⟩ := Option.bind_eq_some_iff.mp found
  split_ifs at found with complete
  cases found
  obtain ⟨number, enough⟩ := complete
  dsimp only at first length enough
  rw [readResponse, Lines.read_append head, Option.bind_some, first, Option.bind_some, length,
    Option.bind_some, if_pos ⟨number, by rw [List.length_append]; omega⟩, List.take_append_of_le_length enough,
    List.drop_append_of_le_length enough]

theorem version_begins (found : readResponse raw = some (status, body, rest)) : version <+: raw := by
  obtain ⟨⟨lines, behind⟩, head, found⟩ := Option.bind_eq_some_iff.mp found
  obtain ⟨_, first, -⟩ := Option.bind_eq_some_iff.mp found
  obtain ⟨line, listed, -⟩ := Option.map_eq_some_iff.mp first
  have begins := List.isPrefixOf_iff_prefix.mp (List.find?_some listed)
  have whole := Lines.read_sound head
  cases lines with
  | nil => cases listed
  | cons line' lines =>
      have same : line = line' := List.mem_singleton.mp (List.mem_of_find?_eq_some listed)
      subst same
      refine begins.trans ⟨[0x0d#8, 0x0a#8] ++ Lines.write 0x0d#8 0x0a#8 lines ++ behind, ?_⟩
      rw [List.nil_append] at whole
      rw [whole]
      simp [Lines.write]

theorem readResponse_part (free : 0x0d#8 ∉ status) {part : Bytes} (begins : part <+: httpResponse status body)
    {status' body' : Bytes} (found : readResponse part = some (status', body', rest)) :
    part = httpResponse status body ∧ status' = status ∧ body' = body ∧ rest = [] := by
  obtain ⟨missing, whole⟩ := begins
  have later := readResponse_append found missing
  have all := readResponse_httpResponse free body []
  rw [List.append_nil, ← whole, later] at all
  obtain ⟨rfl, rest'⟩ := Prod.mk.inj (Option.some.inj all)
  obtain ⟨rfl, none⟩ := Prod.mk.inj rest'
  obtain ⟨rfl, rfl⟩ := List.append_eq_nil_iff.mp none
  exact ⟨(List.append_nil part).symm.trans whole, rfl, rfl, rfl⟩

/-! ## End to end -/

structure Answers (secs : Nat) (request status body : Bytes) : Prop where
  complete : Handler.headersComplete request = true
  status : status = httpStatus (requestLine (requestText request))
  body : body = httpBody secs (requestLine (requestText request)) (requestText request)

theorem readResponse_sent {secs : Nat} {c : List Bytes} {stream received : Bytes}
    (filled : ∀ chunk ∈ c, chunk ≠ []) (begins : c.flatten <+: stream) (http : Handler.isHttp stream = true)
    (read : received <+: sentBytes secs c) (found : readResponse received = some (status, body, rest)) :
    ∃ request, request <+: stream ∧ Answers secs request status body ∧
      received = buildHttpResponse secs request ∧ rest = [] := by
  have shown := version_begins found
  rw [sentBytes_eq secs filled] at read
  split_ifs at read with first complete
  · obtain ⟨whole, line, content, none⟩ := readResponse_part (cr_notMem_status _) read found
    refine ⟨arrived c, (arrived_begins c).trans begins, ⟨?_, line, content⟩, whole, none⟩
    exact arrivedFrom_complete complete
  · have none := List.prefix_nil.mp (shown.trans read)
    exact absurd none (by decide)
  · have echo := shown.trans (read.trans ((firstChunk_begins c).trans begins))
    obtain ⟨method, member, request⟩ := isHttp_iff.mp http
    have distinct : ∀ method ∈ Handler.httpMethods,
        method.length ≤ version.length ∧ ¬ method <+: version := by
      decide
    obtain ⟨short, other⟩ := distinct method member
    exact absurd (List.prefix_of_prefix_length_le request echo short) other

theorem Answers.read {secs : Nat} {request : Bytes} (answers : Answers secs request status body) (more : Bytes) :
    readResponse (buildHttpResponse secs request ++ more) = some (status, body, more) := by
  rw [answers.status, answers.body]
  exact readResponse_httpResponse (cr_notMem_status _) _ more

namespace Service

/-- End to end: whatever the network does, the reader of a client that has written a request is content
exactly when the client has the whole response to the request, and takes status and body from it. -/
theorem reads_whole_response (secs : Instant → Nat) (iss : U32) (a : Arrival) (actions : List ServiceAction)
    (rule : Runs.Along (step fun now => buildHttpResponse (secs now)) Rule (start iss a) actions) :
    Runs.Always (step fun now => buildHttpResponse (secs now))
      (fun v => v.client.written.length < 2 ^ 31 → Handler.isHttp v.client.written = true →
        ∀ status body rest, readResponse v.client.received = some (status, body, rest) ↔
          ∃ now request, request <+: v.client.written ∧ Answers (secs now) request status body ∧
            v.client.received = buildHttpResponse (secs now) request ∧ rest = [])
      (start iss a) actions := by
  refine Runs.always_mono ?_ (always_answered (fun now => buildHttpResponse (secs now)) iss a actions rule)
  intro v answered short http status body rest
  constructor
  · intro found
    obtain ⟨c, now, filled, begins, read⟩ := answered short
    have sent : v.client.received <+: sentBytes (secs now) c := read
    obtain ⟨request, part, answers, whole, none⟩ := readResponse_sent filled begins http sent found
    exact ⟨now, request, part, answers, whole, none⟩
  · rintro ⟨now, request, -, answers, whole, rfl⟩
    have found := answers.read []
    rwa [List.append_nil, ← whole] at found

theorem reads_whole_response_browsing :
    let v := exec responds (start clientIsn Served.client) browsing
    readResponse v.client.received = some (ascii "200 OK", greeting, []) ∧
      ∃ now request, request <+: v.client.written ∧ Answers now request (ascii "200 OK") greeting ∧
        v.client.received = buildHttpResponse now request := by
  have rule : Runs.Along (step responds) Rule (start clientIsn Served.client) browsing := by
    decide +kernel
  have found : readResponse (exec responds (start clientIsn Served.client) browsing).client.received =
      some (ascii "200 OK", greeting, []) := by decide +kernel
  have short : (exec responds (start clientIsn Served.client) browsing).client.written.length < 2 ^ 31 := by
    decide +kernel
  have http : Handler.isHttp (exec responds (start clientIsn Served.client) browsing).client.written = true := by
    decide +kernel
  have always := Runs.always_exec (reads_whole_response id clientIsn Served.client browsing rule)
  obtain ⟨now, request, part, answers, whole, -⟩ := (always short http _ _ _).mp found
  exact ⟨found, now, request, part, answers, whole⟩

end Service

end MagnumTcp.Tcp
