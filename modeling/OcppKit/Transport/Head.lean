import OcppKit.Library.Marks
import OcppKit.Transport.Handshake
import OcppKit.Transport.Negotiation

/-!
# The head of an upgrade

Both sides of an upgrade write a head: a first line and header lines, each ended by a carriage
return and a line feed, and an empty line after them. It arrives in chunks
(`OcppKit.Head.readHead`), and the bytes that arrive with it and stand after it are the first of
the frames.

A head is read as it was written (`OcppKit.Head.readHead_written`), however the bytes are cut:
the lines are the ones that were written, and no byte after the empty line is lost. This is so up
to a length of its own; a head longer than that is refused
(`OcppKit.Head.readHead_of_late`).
-/

namespace OcppKit

/-- How long a head may be before one gives up on it. -/
def maxHead : ℕ := 16 * 1024

/-- How many bytes are read at once. -/
def headChunk : ℕ := 1024

/-- The end of a line, and the empty line after it. -/
def headEnd : List UInt8 := [0x0D, 0x0A, 0x0D, 0x0A]

/-- Why an upgrade does not come about. -/
inductive UpgradeError where
  /-- The connection has ended. -/
  | closed
  /-- It is not what the other side may write. -/
  | configuration (what : String)
  /-- The server refused, with this status. -/
  | rejected (status : ℕ)
  /-- There is no version that is agreed on. -/
  | negotiation (error : NegotiationError)
  /-- The server's way to compress is not one that is agreed on. -/
  | deflate (error : Ws.NegotiationError)
deriving DecidableEq

/-- **The head of a request or of a response.** -/
structure Head where
  /-- The first line. -/
  target : String
  /-- The headers, their names in lower case. -/
  headers : List (String × String)
  /-- The bytes that arrived after it. -/
  rest : List UInt8
deriving DecidableEq

/-! ### Lines -/

/-- The lines of a text. -/
def splitCrlf : List Char → List (List Char)
  | [] => [[]]
  | '\r' :: '\n' :: cs => [] :: splitCrlf cs
  | c :: cs => (splitCrlf cs).modifyHead (c :: ·)

/-- A header line, when it has a colon: the name in lower case, and the value. -/
def parseHeader (line : List Char) : Option (String × String) :=
  if ':' ∈ line then
    some (String.ofList ((trimSpace (line.takeWhile (· ≠ ':'))).map Char.toLower),
      String.ofList (trimSpace ((line.dropWhile (· ≠ ':')).drop 1)))
  else none

namespace Head

/-- The first header of a name. -/
def header (head : Head) (name : String) : Option String :=
  (head.headers.find? fun header => header.1 = name).map Prod.snd

/-- **A header that is a list**, with every occurrence joined. -/
def headerList (head : Head) (name : String) : Option String :=
  head.headers.foldl (fun joined header =>
    if header.1 ≠ name then joined
    else
      match joined with
      | some out => some (out ++ "," ++ header.2)
      | none => some header.2) none

/-- Whether a header that is a list has a token, in whatever case. -/
def headerLists (head : Head) (name token : String) : Bool :=
  (head.headerList name).any fun value =>
    (value.toList.splitOn ',').any fun item =>
      (trimSpace item).map Char.toLower = token.toList.map Char.toLower

/-- The head that some bytes are. -/
def parse (bytes rest : List UInt8) : Head :=
  let lines := splitCrlf (Utf8.lossyChars bytes)
  { target := String.ofList (lines.headD [])
    headers := (lines.tail.filter fun line => line ≠ []).filterMap parseHeader
    rest := rest }

/-- **Reads a head** from chunks that arrive: the head, and the chunks that are left. -/
def readHead (chunks : List (List UInt8)) : Except UpgradeError (Head × List (List UInt8)) :=
  match Marks.readUntil headEnd maxHead [] chunks with
  | .error .closed => .error .closed
  | .error .tooLong => .error (.configuration "the HTTP head is too large")
  | .ok (buffer, ending, left) =>
    .ok (parse (buffer.take ending) (buffer.drop (ending + 4)), left)

end Head

/-! ### Writing one -/

/-- A text of lines, without the end of the last. -/
def joinLines : List (List Char) → List Char
  | [] => []
  | [line] => line
  | line :: lines => line ++ '\r' :: '\n' :: joinLines lines

/-- **A head as it is written**: its lines, and an empty line. -/
def headText (lines : List (List Char)) : String :=
  String.ofList (joinLines lines ++ ['\r', '\n', '\r', '\n'])

/-- A line that can be written: there is something in it, and it does not end before. -/
def IsLine (line : List Char) : Prop := line ≠ [] ∧ '\n' ∉ line

instance (line : List Char) : Decidable (IsLine line) := inferInstanceAs (Decidable (_ ∧ _))

/-- The header line of a name and a value. -/
def headerLine (name value : String) : List Char := name.toList ++ ':' :: ' ' :: value.toList

/-- A value that a header line keeps: there is no white space around it, and the line does not
end before it does. -/
def IsField (value : String) : Prop := trimSpace value.toList = value.toList ∧ '\n' ∉ value.toList

instance (value : String) : Decidable (IsField value) := inferInstanceAs (Decidable (_ ∧ _))

theorem lineFeed_isUnicodeSpace : isUnicodeSpace '\n' = true := by decide

/-- A value without white space is one. -/
theorem IsField.of_forall {value : String} (h : ∀ c ∈ value.toList, isUnicodeSpace c = false) :
    IsField value := by
  refine ⟨trimSpace_of_forall h, fun hmem => ?_⟩
  have hspace := h _ hmem
  rw [lineFeed_isUnicodeSpace] at hspace
  cases hspace

theorem IsLine.headerLine {name value : String} (hname : '\n' ∉ name.toList)
    (hvalue : IsField value) : IsLine (headerLine name value) := by
  refine ⟨fun hnil => ?_, fun hmem => ?_⟩
  · cases (List.append_eq_nil_iff.mp hnil).2
  · rcases List.mem_append.mp hmem with hmem | hmem
    · exact hname hmem
    · rcases List.mem_cons.mp hmem with hmem | hmem
      · cases hmem
      · rcases List.mem_cons.mp hmem with hmem | hmem
        · cases hmem
        · exact hvalue.2 hmem

theorem trimSpace_space (cs : List Char) : trimSpace (' ' :: cs) = trimSpace cs := by
  rw [trimSpace, List.dropWhile_cons_of_pos (by decide), ← trimSpace]

/-- **A header line is read as its name, in lower case, and its value.** -/
theorem parseHeader_headerLine {name value : String} (hname : ':' ∉ name.toList)
    (hvalue : IsField value) : parseHeader (headerLine name value) =
      some (String.ofList ((trimSpace name.toList).map Char.toLower), value) := by
  have hcolon : ':' ∈ headerLine name value :=
    List.mem_append_right _ List.mem_cons_self
  have hall : ∀ c ∈ name.toList, decide (c ≠ ':') = true := by
    intro c hc
    refine decide_eq_true ?_
    rintro rfl
    exact hname hc
  have htake : (headerLine name value).takeWhile (· ≠ ':') = name.toList := by
    rw [headerLine, List.takeWhile_append_of_pos hall,
      List.takeWhile_cons_of_neg (by decide), List.append_nil]
  have hdrop : ((headerLine name value).dropWhile (· ≠ ':')).drop 1 = ' ' :: value.toList := by
    rw [headerLine, List.dropWhile_append_of_pos hall, List.dropWhile_cons_of_neg (by decide)]
    rfl
  rw [parseHeader, if_pos hcolon, htake, hdrop, trimSpace_space, hvalue.1, String.ofList_toList]

/-! ### The lines that are read -/

theorem splitCrlf_of_notMem {line : List Char} (h : '\n' ∉ line) : splitCrlf line = [line] := by
  induction line with
  | nil => rfl
  | cons c cs ih =>
      rw [List.mem_cons, not_or] at h
      rw [splitCrlf, ih h.2, List.modifyHead_cons]
      rintro cs' - rfl
      exact h.2 List.mem_cons_self

theorem splitCrlf_append {line : List Char} (h : '\n' ∉ line) (cs : List Char) :
    splitCrlf (line ++ '\r' :: '\n' :: cs) = line :: splitCrlf cs := by
  induction line with
  | nil => rfl
  | cons c rest ih =>
      rw [List.mem_cons, not_or] at h
      rw [List.cons_append, splitCrlf, ih h.2, List.modifyHead_cons]
      rintro cs' - hnext
      rcases rest with _ | ⟨d, rest⟩
      · cases hnext
      · obtain ⟨rfl, -⟩ := List.cons.inj hnext
        exact h.2 List.mem_cons_self

/-- **The lines that were joined are the ones that are read.** -/
theorem splitCrlf_joinLines {lines : List (List Char)} (hne : lines ≠ [])
    (h : ∀ line ∈ lines, '\n' ∉ line) : splitCrlf (joinLines lines) = lines := by
  induction lines with
  | nil => exact absurd rfl hne
  | cons line lines ih =>
      have hline := h line List.mem_cons_self
      rcases lines with _ | ⟨next, lines⟩
      · exact splitCrlf_of_notMem hline
      · rw [joinLines, splitCrlf_append hline, ih (List.cons_ne_nil _ _) fun l hl =>
          h l (List.mem_cons_of_mem _ hl)]
        rintro ⟨⟩

/-! ### Where a head ends -/

/-- A line in bytes. -/
def lineBytes (line : List Char) : List UInt8 := line.flatMap String.utf8EncodeChar

theorem lineBytes_append (l l' : List Char) :
    lineBytes (l ++ l') = lineBytes l ++ lineBytes l' := List.flatMap_append

theorem lineBytes_crlf (l : List Char) :
    lineBytes ('\r' :: '\n' :: l) = 0x0D :: 0x0A :: lineBytes l := rfl

/-- No byte of a line is a line feed. -/
theorem lineFeed_notMem {line : List Char} (h : '\n' ∉ line) : 0x0A ∉ lineBytes line := by
  intro hmem
  have hencoded : lineBytes line = Utf8.encode (String.ofList line) :=
    (Utf8.encode_ofList line).symm
  rw [hencoded] at hmem
  refine h ?_
  have hchar := Utf8.mem_toList_of_mem_encode (c := '\n') (by decide) hmem
  rwa [String.toList_ofList] at hchar

theorem lineBytes_ne_nil {line : List Char} (h : line ≠ []) : lineBytes line ≠ [] := by
  rcases line with _ | ⟨c, cs⟩
  · exact absurd rfl h
  · intro hnil
    have hlength := congrArg List.length (List.append_eq_nil_iff.mp hnil).1
    rw [String.length_utf8EncodeChar, List.length_nil] at hlength
    have := c.utf8Size_pos
    omega

/-- Where bytes go on without a line feed, no head ends. -/
theorem not_headEnd_isPrefix {b : UInt8} {bytes rest : List UInt8} (h : 0x0A ∉ bytes) :
    ¬headEnd <+: b :: (bytes ++ 0x0D :: rest) := by
  intro hpre
  obtain ⟨-, hpre⟩ := List.cons_prefix_cons.mp hpre
  rcases bytes with _ | ⟨d, bytes⟩
  · obtain ⟨heq, -⟩ := List.cons_prefix_cons.mp hpre
    exact absurd heq (by decide)
  · obtain ⟨rfl, -⟩ := List.cons_prefix_cons.mp hpre
    exact h List.mem_cons_self

theorem find_headEnd_append {bytes : List UInt8} (h : 0x0A ∉ bytes) (rest : List UInt8) :
    Marks.find headEnd (bytes ++ 0x0D :: rest) =
      (Marks.find headEnd (0x0D :: rest)).map (· + bytes.length) := by
  induction bytes with
  | nil =>
      rw [List.nil_append, List.length_nil]
      exact Option.map_id'.symm
  | cons b bytes ih =>
      rw [List.mem_cons, not_or] at h
      rw [List.cons_append, Marks.find_cons_of_not (not_headEnd_isPrefix h.2), ih h.2,
        Option.map_map]
      refine congrArg (fun f => Option.map f _) ?_
      funext n
      rw [Function.comp_apply, List.length_cons, Nat.add_assoc]

/-- A line after a line ends no head. -/
theorem find_headEnd_crlf {b : UInt8} {bytes : List UInt8} (h : 0x0A ∉ b :: bytes)
    (rest : List UInt8) :
    Marks.find headEnd (0x0D :: 0x0A :: (b :: bytes ++ 0x0D :: rest)) =
      (Marks.find headEnd (b :: bytes ++ 0x0D :: rest)).map (· + 2) := by
  rw [List.mem_cons, not_or] at h
  have hfirst : ¬headEnd <+: 0x0D :: 0x0A :: (b :: bytes ++ 0x0D :: rest) := by
    intro hpre
    obtain ⟨-, hpre⟩ := List.cons_prefix_cons.mp hpre
    obtain ⟨-, hpre⟩ := List.cons_prefix_cons.mp hpre
    obtain ⟨-, hpre⟩ := List.cons_prefix_cons.mp hpre
    rcases bytes with _ | ⟨d, bytes⟩
    · obtain ⟨heq, -⟩ := List.cons_prefix_cons.mp hpre
      exact absurd heq (by decide)
    · obtain ⟨rfl, -⟩ := List.cons_prefix_cons.mp hpre
      exact h.2 List.mem_cons_self
  have hsecond : ¬headEnd <+: 0x0A :: (b :: bytes ++ 0x0D :: rest) := by
    intro hpre
    obtain ⟨heq, -⟩ := List.cons_prefix_cons.mp hpre
    exact absurd heq (by decide)
  rw [Marks.find_cons_of_not hfirst, Marks.find_cons_of_not hsecond, Option.map_map]
  rfl

/-- **A head ends where its last line does.** -/
theorem find_headEnd_joinLines {lines : List (List Char)} (hne : lines ≠ [])
    (h : ∀ line ∈ lines, IsLine line) (more : List UInt8) :
    Marks.find headEnd (lineBytes (joinLines lines) ++ (headEnd ++ more)) =
      some (lineBytes (joinLines lines)).length := by
  induction lines with
  | nil => exact absurd rfl hne
  | cons line lines ih =>
      have hline := lineFeed_notMem (h line List.mem_cons_self).2
      rcases lines with _ | ⟨next, lines⟩
      · -- after the last line the end of the head follows at once
        have hmark : Marks.find headEnd (headEnd ++ more) = some 0 :=
          Marks.find_of_isPrefix (List.prefix_append _ _)
        have hjoined : joinLines [line] = line := rfl
        rw [hjoined]
        change Marks.find headEnd (lineBytes line ++ 0x0D :: ([0x0A, 0x0D, 0x0A] ++ more)) = _
        rw [find_headEnd_append hline]
        change (Marks.find headEnd (headEnd ++ more)).map _ = _
        rw [hmark, Option.map_some, Nat.zero_add]
      · have hafter := ih (List.cons_ne_nil _ _) fun l hl => h l (List.mem_cons_of_mem _ hl)
        have hnext := h next (List.mem_cons_of_mem _ List.mem_cons_self)
        have hjoined : lineBytes (joinLines (line :: next :: lines)) =
            lineBytes line ++ 0x0D :: 0x0A :: lineBytes (joinLines (next :: lines)) := by
          rw [joinLines, lineBytes_append, lineBytes_crlf]
          rintro ⟨⟩
        -- what stands after the next line begins with a carriage return
        obtain ⟨b, bytes, rest, hhead, hfeed⟩ : ∃ b bytes rest,
            lineBytes (joinLines (next :: lines)) ++ (headEnd ++ more) =
              b :: bytes ++ 0x0D :: rest ∧ 0x0A ∉ b :: bytes := by
          obtain ⟨b, bytes, hbytes⟩ := List.exists_cons_of_ne_nil (lineBytes_ne_nil hnext.1)
          have hfeed := lineFeed_notMem hnext.2
          rw [hbytes] at hfeed
          rcases lines with _ | ⟨third, lines⟩
          · refine ⟨b, bytes, [0x0A, 0x0D, 0x0A] ++ more, ?_, hfeed⟩
            rw [← hbytes]
            rfl
          · refine ⟨b, bytes, 0x0A :: (lineBytes (joinLines (third :: lines)) ++
              (headEnd ++ more)), ?_, hfeed⟩
            rw [← hbytes, joinLines, lineBytes_append, lineBytes_crlf, List.append_assoc]
            · rfl
            · rintro ⟨⟩
        rw [hjoined, List.append_assoc, List.cons_append, List.cons_append,
          find_headEnd_append hline, hhead, find_headEnd_crlf hfeed, ← hhead, hafter,
          Option.map_some, Option.map_some, List.length_append, List.length_cons, List.length_cons]
        congr 1
        omega

/-! ### There and back -/

theorem encode_headText (lines : List (List Char)) :
    Utf8.encode (headText lines) = lineBytes (joinLines lines) ++ headEnd := by
  rw [headText, Utf8.encode_ofList, List.flatMap_append]
  rfl

theorem lossyChars_lineBytes (line : List Char) : Utf8.lossyChars (lineBytes line) = line := by
  have hdecoded := congrArg String.toList (Utf8.decodeLossy_encode (String.ofList line))
  rwa [Utf8.decodeLossy, Utf8.encode_ofList, String.toList_ofList, String.toList_ofList]
    at hdecoded

namespace Head

/-- The head that written lines are. -/
def ofLines (lines : List (List Char)) (rest : List UInt8) : Head where
  target := String.ofList (lines.headD [])
  headers := lines.tail.filterMap parseHeader
  rest := rest

theorem parse_lineBytes {lines : List (List Char)} (hne : lines ≠ [])
    (h : ∀ line ∈ lines, IsLine line) (rest : List UInt8) :
    parse (lineBytes (joinLines lines)) rest = ofLines lines rest := by
  have hlines : splitCrlf (Utf8.lossyChars (lineBytes (joinLines lines))) = lines := by
    rw [lossyChars_lineBytes, splitCrlf_joinLines hne fun line hline => (h line hline).2]
  have hfull : (lines.tail.filter fun line => line ≠ []) = lines.tail := by
    rw [List.filter_eq_self]
    intro line hline
    exact decide_eq_true (h line (List.mem_of_mem_tail hline)).1
  rw [parse, hlines, hfull, ofLines]

/-- A head is read where the stream has one, and what stands after it is not lost. -/
theorem readHead_spec {chunks left : List (List UInt8)} {head : Head}
    (h : readHead chunks = .ok (head, left)) :
    ∃ n, Marks.find headEnd chunks.flatten = some n ∧
      head = parse (chunks.flatten.take n) head.rest ∧
      head.rest ++ left.flatten = chunks.flatten.drop (n + 4) := by
  rw [readHead] at h
  split at h
  · cases h
  · cases h
  · next buffer ending left' hread =>
    cases h
    -- the end is found in what has been read as it is in the whole stream
    obtain ⟨hfind, hstream, hroom⟩ := Marks.find_of_readUntil hread
    rw [List.nil_append] at hfind hstream
    have hfour : headEnd.length = 4 := rfl
    rw [hfour] at hroom
    refine ⟨ending, hfind, ?_, ?_⟩
    · rw [← hstream, List.take_append_of_le_length (by omega)]
      rfl
    · rw [← hstream, List.drop_append_of_le_length hroom]
      rfl

/-- A head within the limit is read, whatever it is. -/
theorem readHead_of_find {chunks : List (List UInt8)} (hchunks : [] ∉ chunks) {n : ℕ}
    (hfind : Marks.find headEnd chunks.flatten = some n) (hfits : n + 4 ≤ maxHead + 1) :
    ∃ head left, readHead chunks = .ok (head, left) := by
  obtain ⟨seen, left, hread⟩ : ∃ seen left,
      Marks.readUntil headEnd maxHead [] chunks = .ok (seen, n, left) :=
    Marks.readUntil_of_find hchunks rfl hfind hfits
  exact ⟨_, left, by rw [readHead, hread]⟩

/-- **How the bytes of a head are cut makes no difference**, whatever they are: where the end of
the head is within the limit, what is read of one way to cut them is read of any other, the same
lines, and the same bytes after them. -/
theorem readHead_chunks {chunks chunks' left : List (List UInt8)} {head : Head}
    (hchunks : [] ∉ chunks') (hsame : chunks.flatten = chunks'.flatten)
    (h : readHead chunks = .ok (head, left))
    (hfits : ∀ n, Marks.find headEnd chunks.flatten = some n → n + 4 ≤ maxHead + 1) :
    ∃ head' left', readHead chunks' = .ok (head', left') ∧
      head'.target = head.target ∧ head'.headers = head.headers ∧
      head'.rest ++ left'.flatten = head.rest ++ left.flatten := by
  obtain ⟨n, hfind, hhead, hrest⟩ := readHead_spec h
  have hlimit := hfits n hfind
  rw [hsame] at hfind hhead hrest
  obtain ⟨head', left', h'⟩ := readHead_of_find hchunks hfind hlimit
  obtain ⟨n', hfind', hhead', hrest'⟩ := readHead_spec h'
  rw [hfind] at hfind'
  obtain rfl := Option.some.inj hfind'
  refine ⟨head', left', h', ?_, ?_, hrest'.trans hrest.symm⟩
  · rw [hhead, hhead']
    rfl
  · rw [hhead, hhead']
    rfl

/-- **A head is read as it was written**, however its bytes are cut: its lines are the ones
that were written, and what stands after them is kept. -/
theorem readHead_written {lines : List (List Char)} (hne : lines ≠ [])
    (h : ∀ line ∈ lines, IsLine line) {more : List UInt8} {chunks : List (List UInt8)}
    (hchunks : [] ∉ chunks) (hstream : chunks.flatten = Utf8.encode (headText lines) ++ more)
    (hlength : (Utf8.encode (headText lines)).length ≤ maxHead + 1) :
    ∃ rest left, readHead chunks = .ok (ofLines lines rest, left) ∧
      rest ++ left.flatten = more := by
  rw [encode_headText] at hstream hlength
  have hfind : Marks.find headEnd chunks.flatten = some (lineBytes (joinLines lines)).length := by
    rw [hstream, List.append_assoc]
    exact find_headEnd_joinLines hne h more
  have hfits : (lineBytes (joinLines lines)).length + 4 ≤ maxHead + 1 := by
    rwa [List.length_append] at hlength
  obtain ⟨head, left, hok⟩ := readHead_of_find hchunks hfind hfits
  obtain ⟨n, hfind', hhead, hrest⟩ := readHead_spec hok
  rw [hfind] at hfind'
  obtain rfl := Option.some.inj hfind'
  refine ⟨head.rest, left, ?_, ?_⟩
  · rw [hstream, List.append_assoc, List.take_left, parse_lineBytes hne h] at hhead
    rw [hok, ← hhead]
  · rw [hrest, hstream]
    exact List.drop_left' (by rw [List.length_append]; rfl)

/-- **A head that is too long is refused**, however its bytes are cut. -/
theorem readHead_of_late {lines : List (List Char)} (hne : lines ≠ [])
    (h : ∀ line ∈ lines, IsLine line) {more : List UInt8} {chunks : List (List UInt8)}
    (hchunks : [] ∉ chunks) (hwidth : ∀ chunk ∈ chunks, chunk.length ≤ headChunk)
    (hstream : chunks.flatten = Utf8.encode (headText lines) ++ more)
    (hlength : maxHead + headChunk < (Utf8.encode (headText lines)).length) :
    readHead chunks = .error (.configuration "the HTTP head is too large") := by
  have hlate : Marks.readUntil headEnd maxHead [] chunks = .error .tooLong := by
    refine Marks.readUntil_of_late hchunks hwidth (Nat.zero_le _) ?_ ?_
    · rw [List.nil_append, hstream, List.length_append]
      omega
    · intro n hn
      rw [encode_headText] at hstream hlength
      rw [List.nil_append, hstream, List.append_assoc, find_headEnd_joinLines hne h more] at hn
      obtain rfl := Option.some.inj hn
      rwa [List.length_append] at hlength
  rw [readHead, hlate]

end Head

end OcppKit

/-! ### A head in two chunks, and in one -/

namespace OcppKit.Reference

/-- A head, and the first two bytes of a frame. -/
def smallHead : List UInt8 :=
  Utf8.encode (headText ["GET / HTTP/1.1".toList, headerLine "Host" "a"]) ++ [0x81, 0x00]

theorem flatten_smallHead : [smallHead].flatten =
    [smallHead.take 3, smallHead.drop 3].flatten := by
  rw [List.flatten_cons, List.flatten_cons, List.flatten_cons, List.flatten_nil, List.append_nil,
    List.append_nil, List.take_append_drop]

theorem readHead_smallHead : ∃ rest left, Head.readHead [smallHead] =
    .ok (Head.ofLines ["GET / HTTP/1.1".toList, headerLine "Host" "a"] rest, left) ∧
      rest ++ left.flatten = [0x81, 0x00] :=
  Head.readHead_written (by decide) (by decide +kernel) (by decide +kernel)
    (List.append_nil _) (by decide +kernel)

theorem readHead_chunks_smallHead : ∃ head left head' left',
    Head.readHead [smallHead] = .ok (head, left) ∧
    Head.readHead [smallHead.take 3, smallHead.drop 3] = .ok (head', left') ∧
      head'.target = head.target ∧ head'.headers = head.headers ∧
      head'.rest ++ left'.flatten = head.rest ++ left.flatten := by
  obtain ⟨rest, left, hread, -⟩ := readHead_smallHead
  have hfits : ∀ n, Marks.find headEnd [smallHead].flatten = some n → n + 4 ≤ maxHead + 1 := by
    intro n hn
    have hroom := Marks.le_length_of_find hn
    have hlength : [smallHead].flatten.length ≤ maxHead + 1 := by decide +kernel
    exact hroom.trans hlength
  obtain ⟨head', left', hrest⟩ :=
    Head.readHead_chunks (by decide +kernel) flatten_smallHead hread hfits
  exact ⟨_, left, head', left', hread, hrest⟩

end OcppKit.Reference
