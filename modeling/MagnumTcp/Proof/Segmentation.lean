import MagnumTcp.Tcp.Http

namespace MagnumTcp.Tcp

theorem isHttp_iff {buf : Bytes} :
    Handler.isHttp buf = true ↔ ∃ method ∈ Handler.httpMethods, method <+: buf := by
  simp [Handler.isHttp, List.any_eq_true]

theorem isHttp_mono {p s : Bytes} (start : p <+: s) (http : Handler.isHttp p = true) :
    Handler.isHttp s = true := by
  obtain ⟨method, listed, begins⟩ := isHttp_iff.mp http
  exact isHttp_iff.mpr ⟨method, listed, begins.trans start⟩

theorem headersComplete_iff {buf : Bytes} :
    Handler.headersComplete buf = true ↔ headerEnd <:+: buf := by
  unfold Handler.headersComplete
  rw [List.any_eq_true, List.infix_iff_prefix_suffix]
  constructor
  · rintro ⟨rest, tail, begins⟩
    exact ⟨rest, List.isPrefixOf_iff_prefix.mp begins, (List.mem_tails _ _).mp tail⟩
  · rintro ⟨rest, begins, tail⟩
    exact ⟨rest, (List.mem_tails _ _).mpr tail, List.isPrefixOf_iff_prefix.mpr begins⟩

theorem headersComplete_mono {p s : Bytes} (start : p <+: s)
    (complete : Handler.headersComplete p = true) : Handler.headersComplete s = true :=
  headersComplete_iff.mpr ((headersComplete_iff.mp complete).trans start.isInfix)

/-! ## What has arrived -/

def firstChunk (chunks : List Bytes) : Bytes := chunks.headD []

def arrivedFrom : Bytes → List Bytes → Bytes
  | buf, [] => buf
  | buf, chunk :: rest =>
      if Handler.headersComplete (buf ++ chunk) then buf ++ chunk else arrivedFrom (buf ++ chunk) rest

def arrived (chunks : List Bytes) : Bytes := arrivedFrom [] chunks

theorem arrivedFrom_begins (buf : Bytes) (chunks : List Bytes) :
    arrivedFrom buf chunks <+: buf ++ chunks.flatten := by
  induction chunks generalizing buf with
  | nil => simp [arrivedFrom]
  | cons chunk rest ih =>
      rw [arrivedFrom, List.flatten_cons, ← List.append_assoc]
      split
      · exact List.prefix_append _ _
      · exact ih (buf ++ chunk)

theorem begins_arrivedFrom (buf : Bytes) (chunks : List Bytes) : buf <+: arrivedFrom buf chunks := by
  induction chunks generalizing buf with
  | nil => exact List.prefix_refl buf
  | cons chunk rest ih =>
      rw [arrivedFrom]
      split
      · exact List.prefix_append _ _
      · exact (List.prefix_append buf chunk).trans (ih (buf ++ chunk))

theorem arrivedFrom_complete {buf : Bytes} {chunks : List Bytes}
    (complete : Handler.headersComplete (buf ++ chunks.flatten) = true) :
    Handler.headersComplete (arrivedFrom buf chunks) = true := by
  induction chunks generalizing buf with
  | nil => simpa [arrivedFrom] using complete
  | cons chunk rest ih =>
      rw [arrivedFrom]
      split
      · assumption
      · rw [List.flatten_cons, ← List.append_assoc] at complete
        exact ih complete

theorem arrived_begins (chunks : List Bytes) : arrived chunks <+: chunks.flatten :=
  arrivedFrom_begins [] chunks

theorem firstChunk_begins_arrived (chunks : List Bytes) : firstChunk chunks <+: arrived chunks := by
  cases chunks with
  | nil => exact List.prefix_refl []
  | cons first rest =>
      rw [arrived, arrivedFrom]
      split
      · exact List.prefix_refl first
      · exact begins_arrivedFrom _ rest

theorem arrived_singleton (stream : Bytes) : arrived [stream] = stream := by
  simp [arrived, arrivedFrom]

/-! ## The loop -/

namespace Handler

variable {respond : Bytes → Bytes} {buf chunk : Bytes} {chunks : List Bytes}

def awaiting (buf : Bytes) : Handler := ⟨.reading, buf, false⟩

theorem start_eq : Handler.start = awaiting [] := rfl

theorem loop_responded (respond : Bytes → Bytes) (buf : Bytes) (chunks : List Bytes) :
    (loop respond ⟨.reading, buf, true⟩ chunks).2 = [] := by
  induction chunks generalizing buf with
  | nil => rfl
  | cons chunk rest ih => exact ih (buf ++ chunk)

theorem round_raw (raw : isHttp (buf ++ chunk) = false) (some : buf ++ chunk ≠ []) :
    (awaiting buf).round respond chunk = (⟨.reading, buf ++ chunk, true⟩, [buf ++ chunk]) := by
  simp [round, receive, awaiting, raw, some]

theorem round_request (http : isHttp (buf ++ chunk) = true)
    (complete : headersComplete (buf ++ chunk) = true) :
    (awaiting buf).round respond chunk =
      (⟨.reading, buf ++ chunk, true⟩, [respond (buf ++ chunk)]) := by
  simp [round, receive, awaiting, http, complete]

theorem round_pending (http : isHttp (buf ++ chunk) = true)
    (pending : headersComplete (buf ++ chunk) = false) :
    (awaiting buf).round respond chunk = (awaiting (buf ++ chunk), []) := by
  simp [round, receive, awaiting, http, pending]

theorem loop_request (http : ∀ chunk ∈ chunks.head?, isHttp (buf ++ chunk) = true)
    (pending : headersComplete buf = false) :
    ((awaiting buf).loop respond chunks).2 =
      if headersComplete (buf ++ chunks.flatten) then [respond (arrivedFrom buf chunks)] else [] := by
  induction chunks generalizing buf with
  | nil => simp [loop, pending]
  | cons chunk rest ih =>
      have begun := http chunk rfl
      rw [List.flatten_cons, ← List.append_assoc, arrivedFrom, loop]
      cases complete : headersComplete (buf ++ chunk) with
      | true =>
          rw [round_request begun complete, if_pos rfl,
            if_pos (headersComplete_mono (List.prefix_append _ _) complete)]
          exact congrArg _ (loop_responded respond _ rest)
      | false =>
          rw [round_pending begun complete, if_neg Bool.false_ne_true]
          exact ih (fun next _ => isHttp_mono (List.prefix_append _ _) begun) complete

end Handler

namespace Served

variable {s : Served} {chunk : Bytes} {rest : List Bytes}

theorem exec_round (respond : Instant → Bytes → Bytes) (now : Instant) (running : s.task.running = true)
    (reading : s.handler.phase = .reading) (data : s.appData = chunk :: rest)
    (room : s.appSend.length + (s.handler.round (respond now) chunk).2.length ≤ appChannelCapacity) :
    ∃ n, exec respond s (List.replicate n (.handler now)) =
        { s with
          appData := rest
          handler := (s.handler.round (respond now) chunk).1
          appSend := s.appSend ++ (s.handler.round (respond now) chunk).2 } ∧
      (s.handler.round (respond now) chunk).1.phase = .reading := by
  have received : s.stepHandler respond now =
      { s with appData := rest, handler := s.handler.receive (respond now) chunk } := by
    simp only [stepHandler, reading, data]
  unfold Handler.round at room ⊢
  obtain waiting | ⟨resp, replying⟩ := Handler.receive_reading (respond now) chunk reading
  · refine ⟨1, ?_⟩
    simp only [waiting]
    exact ⟨received.trans (by simp), trivial⟩
  · refine ⟨2, ?_⟩
    simp only [replying, List.length_singleton] at room ⊢
    refine ⟨?_, trivial⟩
    change (s.stepHandler respond now).stepHandler respond now = _
    rw [received]
    simp only [stepHandler, replying, running, Bool.not_true, Bool.false_eq_true, if_false]
    rw [if_pos (by omega)]

theorem exec_loop (respond : Instant → Bytes → Bytes) (now : Instant)
    (running : s.task.running = true)
    (reading : s.handler.phase = .reading)
    (room : s.appSend.length + (s.handler.loop (respond now) s.appData).2.length ≤
      appChannelCapacity) :
    ∃ n, exec respond s (List.replicate n (.handler now)) =
      { s with
        appData := []
        handler := (s.handler.loop (respond now) s.appData).1
        appSend := s.appSend ++ (s.handler.loop (respond now) s.appData).2 } := by
  induction data : s.appData generalizing s with
  | nil =>
      refine ⟨0, ?_⟩
      obtain ⟨task, pending, appData, appSend, closeSignal, handler⟩ := s
      cases data
      simp [Handler.loop]
  | cons chunk rest ih =>
      rw [data] at room
      simp only [Handler.loop, List.length_append] at room ⊢
      obtain ⟨n, first, still⟩ := exec_round respond now running reading data (by omega)
      obtain ⟨m, later⟩ := ih (s := exec respond s (List.replicate n (.handler now)))
        (by rw [first]; exact running) (by rw [first]; exact still)
        (by rw [first]; simp only [List.length_append]; omega) (by rw [first])
      refine ⟨n + m, ?_⟩
      calc exec respond s (List.replicate (n + m) (.handler now))
          = exec respond (exec respond s (List.replicate n (.handler now)))
              (List.replicate m (.handler now)) := by
            rw [← List.replicate_append_replicate]
            exact Runs.exec_append _ _ _ _
        _ = _ := by
            rw [later, first]
            simp

end Served

def sentBytes (secs : Nat) (chunks : List Bytes) : Bytes := (handleConnection secs chunks).flatten

theorem sentBytes_eq (secs : Nat) {chunks : List Bytes} (filled : ∀ chunk ∈ chunks, chunk ≠ []) :
    sentBytes secs chunks =
      if Handler.isHttp (firstChunk chunks) then
        if Handler.headersComplete chunks.flatten then buildHttpResponse secs (arrived chunks) else []
      else firstChunk chunks := by
  cases chunks with
  | nil => rfl
  | cons first rest =>
      rw [firstChunk, List.headD_cons, sentBytes, handleConnection]
      cases http : Handler.isHttp first with
      | true =>
          have begun : ∀ chunk ∈ (first :: rest).head?, Handler.isHttp ([] ++ chunk) = true := by
            simp [http]
          rw [Handler.start_eq, Handler.loop_request begun rfl, List.nil_append, if_pos rfl]
          split <;> simp [arrived]
      | false =>
          have raw : Handler.isHttp ([] ++ first) = false := http
          have some : [] ++ first ≠ [] := filled first List.mem_cons_self
          rw [Handler.start_eq, Handler.loop, Handler.round_raw raw some, if_neg Bool.false_ne_true]
          simp [Handler.loop_responded]

/-! ## Responses -/

theorem cr_notMem_decimal (n : Nat) : 0x0d#8 ∉ ascii (toString n) := by
  intro listed
  obtain ⟨c, digit, byte⟩ : ∃ c ∈ Nat.toDigits 10 n, BitVec.ofNat 8 c.toNat = 0x0d#8 := by
    simpa [ascii] using listed
  have isDigit := Nat.isDigit_of_mem_toDigits (by omega) (by omega) digit
  have range : 48 ≤ c.toNat ∧ c.toNat ≤ 57 := by
    simpa [Char.isDigit, UInt32.le_iff_toNat_le] using isDigit
  have value := congrArg BitVec.toNat byte
  rw [BitVec.toNat_ofNat, Nat.mod_eq_of_lt (by omega)] at value
  have thirteen : (0x0d#8).toNat = 13 := rfl
  omega

/-- A client that reads up to the empty line has the body. -/
theorem httpResponse_body {status₁ status₂ body₁ body₂ : Bytes} (line₁ : 0x0d#8 ∉ status₁)
    (line₂ : 0x0d#8 ∉ status₂) (same : httpResponse status₁ body₁ = httpResponse status₂ body₂) :
    body₁ = body₂ := by
  unfold httpResponse at same
  simp only [List.append_assoc, List.append_cancel_left_eq] at same
  have lengths := Search.behind_separator line₁ line₂ rfl same
  exact Search.behind_separator (cr_notMem_decimal _) (cr_notMem_decimal _) rfl lengths

theorem cr_notMem_status (route : Route) : 0x0d#8 ∉ httpStatus route := by
  unfold httpStatus
  split_ifs <;> decide

variable {secs : Nat} {route : Route} {p q s : Bytes}

theorem httpBody_root (secs : Nat) (req : Bytes) : httpBody secs getRoot req = greeting := if_pos rfl

theorem httpBody_congr (notEcho : route ≠ getEcho) (notPost : route ≠ postRoot) :
    httpBody secs route p = httpBody secs route q := by
  simp [httpBody, notEcho, notPost]

theorem httpBody_greeting (complete : Handler.headersComplete p = true) :
    httpBody secs route p = greeting ↔ route = getRoot := by
  constructor
  · intro body
    by_contra notRoot
    unfold httpBody at body
    rw [if_neg notRoot] at body
    split_ifs at body
    · rw [body] at complete
      exact absurd complete (by decide)
    all_goals simp [ascii, greeting] at body
  · rintro rfl
    exact httpBody_root secs p

theorem firstLine_stable (start : p <+: s) (complete : Handler.headersComplete p = true) :
    firstLine p = firstLine s := by
  have lineEnd : [0x0a#8] <:+: headerEnd := ⟨[0x0d#8], [0x0d#8, 0x0a#8], rfl⟩
  obtain ⟨i, found⟩ := Search.find_of_infix (lineEnd.trans (headersComplete_iff.mp complete))
  have inside : i ≤ p.length := Nat.le_of_succ_le (Search.find_le found)
  obtain ⟨more, rfl⟩ := start
  unfold firstLine
  rw [found, Search.find_append found]
  dsimp only
  rw [List.take_append_of_le_length inside]

theorem requestLine_stable (start : p <+: s) (complete : Handler.headersComplete p = true) :
    requestLine p = requestLine s := by
  rw [requestLine, firstLine_stable start complete, ← requestLine]

theorem postBody_injective (pStart : p <+: s) (qStart : q <+: s)
    (pComplete : Handler.headersComplete p = true) (qComplete : Handler.headersComplete q = true)
    (same : postBody p = postBody q) : p = q := by
  obtain ⟨i, pFound⟩ := Search.find_of_infix (headersComplete_iff.mp pComplete)
  obtain ⟨j, qFound⟩ := Search.find_of_infix (headersComplete_iff.mp qComplete)
  have place : i = j := Option.some.inj
    ((Search.find_mono pFound pStart).symm.trans (Search.find_mono qFound qStart))
  subst place
  unfold postBody at same
  rw [pFound, qFound] at same
  exact Search.eq_of_drop_eq pFound qFound pStart qStart same

/-- Two requests that begin with the same headers get the same response, if `route` is their request line. -/
def Alike (route : Route) (p q : Bytes) : Prop :=
  p = q ∨ route = getRoot ∨
    validUtf8 p = validUtf8 q ∧ (validUtf8 p = true → route ≠ getEcho ∧ route ≠ postRoot)

instance (route : Route) (p q : Bytes) : Decidable (Alike route p q) :=
  inferInstanceAs (Decidable (p = q ∨ route = getRoot ∨
    validUtf8 p = validUtf8 q ∧ (validUtf8 p = true → route ≠ getEcho ∧ route ≠ postRoot)))

theorem Alike.symm (alike : Alike route p q) : Alike route q p := by
  obtain same | root | ⟨valid, other⟩ := alike
  · exact .inl same.symm
  · exact .inr (.inl root)
  · exact .inr (.inr ⟨valid.symm, fun text => other (valid.trans text)⟩)

theorem buildHttpResponse_text (text : validUtf8 p = true) :
    buildHttpResponse secs p =
      httpResponse (httpStatus (requestLine p)) (httpBody secs (requestLine p) p) := by
  simp only [buildHttpResponse, requestText, text, if_true]

theorem buildHttpResponse_noText (noText : validUtf8 p = false) :
    buildHttpResponse secs p = httpResponse (httpStatus getRoot) greeting := by
  have root : requestLine [] = getRoot := by decide
  simp only [buildHttpResponse, requestText, noText, if_false, Bool.false_eq_true, root,
    httpBody_root]

theorem Alike.response (alike : Alike route p q) (pLine : requestLine p = route)
    (qLine : requestLine q = route) : buildHttpResponse secs p = buildHttpResponse secs q := by
  obtain rfl | root | ⟨valid, other⟩ := alike
  · rfl
  · have fixed : ∀ r, requestLine r = route →
        buildHttpResponse secs r = httpResponse (httpStatus getRoot) greeting := by
      intro r line
      cases text : validUtf8 r with
      | true => rw [buildHttpResponse_text text, line, root, httpBody_root]
      | false => exact buildHttpResponse_noText text
    rw [fixed p pLine, fixed q qLine]
  · cases text : validUtf8 p with
    | true =>
        obtain ⟨notEcho, notPost⟩ := other text
        rw [buildHttpResponse_text text, buildHttpResponse_text (valid.symm.trans text), pLine, qLine,
          httpBody_congr notEcho notPost]
    | false =>
        rw [buildHttpResponse_noText text, buildHttpResponse_noText (valid.symm.trans text)]

theorem root_of_noText (pLine : requestLine p = route) (complete : Handler.headersComplete p = true)
    (text : validUtf8 p = true) (noText : validUtf8 q = false)
    (same : buildHttpResponse secs p = buildHttpResponse secs q) : route = getRoot := by
  rw [buildHttpResponse_text text, buildHttpResponse_noText noText, pLine] at same
  exact (httpBody_greeting complete).mp
    (httpResponse_body (cr_notMem_status _) (cr_notMem_status _) same)

theorem buildHttpResponse_eq_iff (pStart : p <+: s) (qStart : q <+: s)
    (pComplete : Handler.headersComplete p = true) (qComplete : Handler.headersComplete q = true) :
    buildHttpResponse secs p = buildHttpResponse secs q ↔ Alike (requestLine s) p q := by
  have pLine := requestLine_stable pStart pComplete
  have qLine := requestLine_stable qStart qComplete
  refine ⟨fun same => ?_, fun alike => alike.response pLine qLine⟩
  cases pText : validUtf8 p with
  | true =>
      cases qText : validUtf8 q with
      | true =>
          have body := same
          rw [buildHttpResponse_text pText, buildHttpResponse_text qText, pLine, qLine] at body
          replace body := httpResponse_body (cr_notMem_status _) (cr_notMem_status _) body
          by_cases echo : requestLine s = getEcho
          · rw [echo] at body
            exact .inl body
          by_cases post : requestLine s = postRoot
          · rw [post] at body
            have posted := List.append_cancel_left (List.append_cancel_right body)
            exact .inl (postBody_injective pStart qStart pComplete qComplete posted)
          exact .inr (.inr ⟨pText.trans qText.symm, fun _ => ⟨echo, post⟩⟩)
      | false => exact .inr (.inl (root_of_noText pLine pComplete pText qText same))
  | false =>
      cases qText : validUtf8 q with
      | true => exact .inr (.inl (root_of_noText qLine qComplete qText pText same.symm))
      | false => exact .inr (.inr ⟨pText.trans qText.symm, fun text => by simp [pText] at text⟩)

theorem response_not_begins (http : Handler.isHttp s = true) : ¬ buildHttpResponse secs p <+: s := by
  intro response
  obtain ⟨method, listed, begins⟩ := isHttp_iff.mp http
  have version : ascii "HTT" <+: buildHttpResponse secs p := by
    unfold buildHttpResponse httpResponse
    simp only [List.append_assoc]
    have cut : ascii "HTT" <+: ascii "HTTP/1.1 " := ⟨ascii "P/1.1 ", rfl⟩
    exact cut.trans (List.prefix_append _ _)
  have distinct : ∀ method ∈ Handler.httpMethods,
      (ascii "HTT").length ≤ method.length ∧ ¬ ascii "HTT" <+: method := by decide
  obtain ⟨long, other⟩ := distinct method listed
  exact other (List.prefix_of_prefix_length_le (version.trans response) begins long)

/-! ## Two ways to cut a stream -/

def CutAlike (c d : List Bytes) : Prop :=
  if Handler.isHttp (firstChunk c) && Handler.isHttp (firstChunk d) then
    Handler.headersComplete c.flatten = true → Alike (requestLine c.flatten) (arrived c) (arrived d)
  else firstChunk c = firstChunk d

instance (c d : List Bytes) : Decidable (CutAlike c d) :=
  inferInstanceAs (Decidable (if Handler.isHttp (firstChunk c) && Handler.isHttp (firstChunk d) then
    Handler.headersComplete c.flatten = true → Alike (requestLine c.flatten) (arrived c) (arrived d)
  else firstChunk c = firstChunk d))

-- What the client is owed for the whole stream: the response to it if it is a request with complete headers,
-- nothing as long as they are not complete, and the stream itself if it is no request.
def owed (secs : Nat) (stream : Bytes) : Bytes :=
  if Handler.isHttp stream then
    if Handler.headersComplete stream then buildHttpResponse secs stream else []
  else stream

variable {c d : List Bytes}

theorem firstChunk_begins (chunks : List Bytes) : firstChunk chunks <+: chunks.flatten :=
  (firstChunk_begins_arrived chunks).trans (arrived_begins chunks)

theorem firstChunk_ne_nil (filled : ∀ chunk ∈ c, chunk ≠ []) (some : c.flatten ≠ []) :
    firstChunk c ≠ [] := by
  cases c with
  | nil => exact absurd rfl some
  | cons first rest => exact filled first List.mem_cons_self

theorem raw_ne_request (secs : Nat) (filled : ∀ chunk ∈ d, chunk ≠ []) (same : c.flatten = d.flatten)
    (http : Handler.isHttp (firstChunk c) = true) :
    (if Handler.headersComplete c.flatten then buildHttpResponse secs (arrived c) else []) ≠
      firstChunk d := by
  have begun := isHttp_mono (firstChunk_begins c) http
  split
  · intro response
    have start := firstChunk_begins d
    rw [← response, ← same] at start
    exact response_not_begins begun start
  · refine (firstChunk_ne_nil filled ?_).symm
    rw [← same]
    rintro nil
    rw [nil] at begun
    exact absurd begun (by decide)

theorem sentBytes_ne (secs : Nat) (cFilled : ∀ chunk ∈ c, chunk ≠ [])
    (dFilled : ∀ chunk ∈ d, chunk ≠ []) (same : c.flatten = d.flatten)
    (cHttp : Handler.isHttp (firstChunk c) = true) (dRaw : Handler.isHttp (firstChunk d) = false) :
    sentBytes secs c ≠ sentBytes secs d := by
  rw [sentBytes_eq secs cFilled, sentBytes_eq secs dFilled, cHttp, dRaw, if_pos rfl,
    if_neg Bool.false_ne_true]
  exact raw_ne_request secs dFilled same cHttp

theorem firstChunk_ne (cHttp : Handler.isHttp (firstChunk c) = true)
    (dRaw : Handler.isHttp (firstChunk d) = false) : firstChunk c ≠ firstChunk d := by
  intro equal
  rw [equal, dRaw] at cHttp
  exact Bool.false_ne_true cHttp

theorem sentBytes_eq_iff (secs : Nat) (cFilled : ∀ chunk ∈ c, chunk ≠ [])
    (dFilled : ∀ chunk ∈ d, chunk ≠ []) (same : c.flatten = d.flatten) :
    sentBytes secs c = sentBytes secs d ↔ CutAlike c d := by
  unfold CutAlike
  cases cHttp : Handler.isHttp (firstChunk c) with
  | true =>
      cases dHttp : Handler.isHttp (firstChunk d) with
      | true =>
          rw [sentBytes_eq secs cFilled, sentBytes_eq secs dFilled, cHttp, dHttp, ← same]
          simp only [Bool.and_self, if_true]
          cases complete : Handler.headersComplete c.flatten with
          | true =>
              simp only [if_true, forall_const]
              exact buildHttpResponse_eq_iff (arrived_begins c) (same ▸ arrived_begins d)
                (arrivedFrom_complete complete) (arrivedFrom_complete (same ▸ complete))
          | false => simp
      | false =>
          simp only [Bool.and_false, Bool.false_eq_true, if_false]
          exact iff_of_false (sentBytes_ne secs cFilled dFilled same cHttp dHttp)
            (firstChunk_ne cHttp dHttp)
  | false =>
      simp only [Bool.false_and, Bool.false_eq_true, if_false]
      cases dHttp : Handler.isHttp (firstChunk d) with
      | true =>
          exact iff_of_false (sentBytes_ne secs dFilled cFilled same.symm dHttp cHttp).symm
            (firstChunk_ne dHttp cHttp).symm
      | false =>
          rw [sentBytes_eq secs cFilled, sentBytes_eq secs dFilled, cHttp, dHttp]
          simp only [Bool.false_eq_true, if_false]

theorem owed_post (secs : Nat) {head body : Bytes} (http : Handler.isHttp head = true)
    (ends : Search.find headerEnd (head ++ headerEnd) = some head.length)
    (post : requestLine (head ++ headerEnd) = postRoot)
    (text : validUtf8 (head ++ headerEnd ++ body) = true) :
    owed secs (head ++ headerEnd ++ body) =
      httpResponse (ascii "200 OK") (ascii "You posted: " ++ body ++ ascii "\r\n") := by
  have headers : Handler.headersComplete (head ++ headerEnd) = true :=
    headersComplete_iff.mpr (List.suffix_append _ _).isInfix
  have start : head ++ headerEnd <+: head ++ headerEnd ++ body := List.prefix_append _ _
  have begun := isHttp_mono ((List.prefix_append head headerEnd).trans start) http
  have posted : postBody (head ++ headerEnd ++ body) = body := by
    unfold postBody
    rw [Search.find_append ends]
    exact List.drop_left' (by rw [List.length_append]; rfl)
  rw [owed, if_pos begun, if_pos (headersComplete_mono start headers), buildHttpResponse_text text,
    ← requestLine_stable start headers, post]
  have routed : httpBody secs postRoot (head ++ headerEnd ++ body) =
      ascii "You posted: " ++ postBody (head ++ headerEnd ++ body) ++ ascii "\r\n" := rfl
  rw [routed, posted]
  rfl

theorem owed_eq (secs : Nat) (stream : Bytes) : owed secs stream = sentBytes secs [stream] := by
  by_cases nil : stream = []
  · subst nil
    rfl
  · rw [sentBytes_eq secs (by simpa using nil), arrived_singleton, List.flatten_singleton]
    rfl

theorem sentBytes_owed_iff (secs : Nat) (filled : ∀ chunk ∈ c, chunk ≠ []) :
    sentBytes secs c = owed secs c.flatten ↔ CutAlike c [c.flatten] := by
  by_cases nil : c.flatten = []
  · obtain rfl : c = [] := by
      cases c with
      | nil => rfl
      | cons first rest =>
          rw [List.flatten_cons, List.append_eq_nil_iff] at nil
          exact absurd nil.1 (filled first List.mem_cons_self)
    exact iff_of_true rfl (by decide)
  · rw [owed_eq]
    exact sentBytes_eq_iff secs filled (by simpa using nil) List.flatten_singleton.symm

/-- The first equivalence says when two ways to cut a stream get the same answer, the second when
this is the answer to the whole stream. -/
theorem same_answer_iff (secs : Nat) (c d : List Bytes) (cFilled : ∀ chunk ∈ c, chunk ≠ [])
    (dFilled : ∀ chunk ∈ d, chunk ≠ []) (same : c.flatten = d.flatten) :
    (sentBytes secs c = sentBytes secs d ↔ CutAlike c d) ∧
      (sentBytes secs c = sentBytes secs d ∧ sentBytes secs c = owed secs c.flatten ↔
        CutAlike c [c.flatten] ∧ CutAlike d [d.flatten]) := by
  refine ⟨sentBytes_eq_iff secs cFilled dFilled same, ?_⟩
  rw [← sentBytes_owed_iff secs cFilled, ← sentBytes_owed_iff secs dFilled, ← same]
  constructor
  · rintro ⟨agree, answer⟩
    exact ⟨answer, agree.symm.trans answer⟩
  · rintro ⟨answer, other⟩
    exact ⟨answer.trans other.symm, answer⟩

def timeRequest : Bytes := ascii "GET /time HTTP/1.1\r\nHost: magnum\r\n\r\n"

theorem same_answer_iff_time :
    sentBytes 7 [timeRequest.take 4, timeRequest.drop 4] =
        sentBytes 7 [timeRequest.take 25, timeRequest.drop 25] ∧
      sentBytes 7 [timeRequest.take 4, timeRequest.drop 4] =
        owed 7 [timeRequest.take 4, timeRequest.drop 4].flatten :=
  (same_answer_iff 7 [timeRequest.take 4, timeRequest.drop 4]
    [timeRequest.take 25, timeRequest.drop 25] (by decide) (by decide) (by decide)).2.mpr
    (by decide +kernel)

def postHeaders : Bytes := ascii "POST / HTTP/1.1\r\nContent-Length: 5\r\n\r\n"

theorem answer_depends_on_cut :
    sentBytes 0 [postHeaders, ascii "hello"] ≠ sentBytes 0 [postHeaders ++ ascii "hello"] ∧
      sentBytes 0 [ascii "raw ", ascii "data"] ≠ sentBytes 0 [ascii "raw data"] ∧
      sentBytes 0 [ascii "G", ascii "ET / HTTP/1.1\r\n\r\n"] ≠
        sentBytes 0 [ascii "GET / HTTP/1.1\r\n\r\n"] := by
  decide +kernel

end MagnumTcp.Tcp
