import AgentComms.Library.Run

/-!
# JSONL framing

`JsonlStreamReader.readline` frames a native process's output over a stream reader with a buffer
limit. A line longer than the limit is moved to retained chunks part by part, so a cancelled call
loses nothing. A call that finds the parts over its own bound drops the chunks and leaves what is
in the buffer of that line.
-/

namespace AgentComms.Native

variable {Byte : Type} [DecidableEq Byte]

inductive Answer (Byte : Type) where
  | record (bytes : List Byte)
  | malformedRecord
  deriving DecidableEq

def exceeds (maxBytes : Option ℕ) (size : ℕ) : Bool :=
  maxBytes.any (· < size)

/-- What a call bound by `maxBytes` makes of a whole record. -/
def verdict (maxBytes : Option ℕ) (record : List Byte) : Answer Byte :=
  if exceeds maxBytes record.length then .malformedRecord else .record record

/-- The stream reader's buffer, the retained chunks joined, the bound of the pending call, and
beside them every byte fed and every answer given. -/
structure JsonlStream (Byte : Type) where
  buffer : List Byte := []
  eof : Bool := false
  chunks : List Byte := []
  pending : Option (Option ℕ) := none
  fed : List Byte := []
  answers : List (Option ℕ × Answer Byte) := []
  deriving DecidableEq

inductive StreamEvent (Byte : Type) where
  | feed (bytes : List Byte)
  | feedEof
  | call (maxBytes : Option ℕ)
  /-- The pending call runs on. -/
  | wake
  | cancel

namespace JsonlStream

variable (newline : Byte) (limit : ℕ) (maxBytes : Option ℕ) (stream : JsonlStream Byte)

def head : List Byte := stream.buffer.takeWhile (· ≠ newline)

def tail : List Byte := stream.buffer.dropWhile (· ≠ newline)

theorem head_append_tail : stream.head newline ++ stream.tail newline = stream.buffer :=
  List.takeWhile_append_dropWhile

/-- The call ends, with this buffer left and nothing retained. -/
def answer (buffer : List Byte) (given : Answer Byte) : JsonlStream Byte :=
  { stream with buffer, chunks := [], pending := none
                answers := stream.answers ++ [(maxBytes, given)] }

/-- `readuntil` overran its limit, on more than the call's bound. -/
def overruns : Bool :=
  limit < (stream.head newline).length &&
    exceeds maxBytes (stream.chunks.length + (stream.head newline).length)

/-- A call runs until it ends or has to wait for the stream. -/
def readline (stream : JsonlStream Byte) : JsonlStream Byte :=
  if limit < (stream.head newline).length then
    if exceeds maxBytes (stream.chunks.length + (stream.head newline).length) then
      stream.answer maxBytes stream.buffer .malformedRecord
    else readline { stream with
      buffer := stream.tail newline, chunks := stream.chunks ++ stream.head newline }
  else match stream.tail newline with
    | byte :: rest =>
      stream.answer maxBytes rest (verdict maxBytes (stream.chunks ++ stream.head newline ++ [byte]))
    | [] =>
      if stream.eof then
        stream.answer maxBytes [] (verdict maxBytes (stream.chunks ++ stream.head newline))
      else { stream with pending := some maxBytes }
termination_by stream.buffer.length
decreasing_by
  have hlength := congrArg List.length (stream.head_append_tail newline)
  rw [List.length_append] at hlength
  omega

def runs : StreamEvent Byte → Option (Option ℕ)
  | .call maxBytes => if stream.pending.isSome then none else some maxBytes
  | .wake => stream.pending
  | _ => none

def step (event : StreamEvent Byte) : JsonlStream Byte :=
  match event with
  | .feed bytes => if stream.eof then stream else
      { stream with buffer := stream.buffer ++ bytes, fed := stream.fed ++ bytes }
  | .feedEof => { stream with eof := true }
  | .cancel => { stream with pending := none }
  | .call _ | .wake => (stream.runs event).elim stream (stream.readline newline limit ·)

/-- No call of the sequence runs into an overrun that it refuses. -/
def clear : JsonlStream Byte → List (StreamEvent Byte) → Bool
  | _, [] => true
  | stream, event :: events =>
    (stream.runs event).all (fun maxBytes => !stream.overruns newline limit maxBytes) &&
      clear (stream.step newline limit event) events

end JsonlStream

/-- The answers take the stream's records one by one, in order, each with the verdict of its own
call, and leave the given bytes. At the end of the stream its last bytes are a record. -/
inductive Frames (newline : Byte) (eof : Bool) :
    List Byte → List (Option ℕ × Answer Byte) → List Byte → Prop
  | nil (bytes : List Byte) : Frames newline eof bytes [] bytes
  | line {body rest left : List Byte} {answers : List (Option ℕ × Answer Byte)}
      (maxBytes : Option ℕ) (hbody : newline ∉ body) (hrest : Frames newline eof rest answers left) :
      Frames newline eof (body ++ newline :: rest)
        ((maxBytes, verdict maxBytes (body ++ [newline])) :: answers) left
  | last {body left : List Byte} {answers : List (Option ℕ × Answer Byte)} (maxBytes : Option ℕ)
      (heof : eof = true) (hbody : newline ∉ body) (hrest : Frames newline eof [] answers left) :
      Frames newline eof body ((maxBytes, verdict maxBytes body) :: answers) left

namespace Frames

variable {Byte : Type} {newline : Byte} {eof eof' : Bool} {bytes left rest : List Byte}
  {answers more : List (Option ℕ × Answer Byte)}

theorem trans (hframes : Frames newline eof bytes answers left)
    (hmore : Frames newline eof left more rest) :
    Frames newline eof bytes (answers ++ more) rest := by
  induction hframes with
  | nil => exact hmore
  | line maxBytes hbody _ ih => exact .line maxBytes hbody (ih hmore)
  | last maxBytes heof hbody _ ih => exact .last maxBytes heof hbody (ih hmore)

theorem fed (hframes : Frames newline false bytes answers left) (arrived : List Byte) :
    Frames newline false (bytes ++ arrived) answers (left ++ arrived) := by
  induction hframes with
  | nil => exact .nil _
  | line maxBytes hbody _ ih =>
    rw [List.append_assoc]
    exact .line maxBytes hbody ih
  | last _ heof => cases heof

theorem ended (hframes : Frames newline eof bytes answers left) :
    Frames newline true bytes answers left := by
  induction hframes with
  | nil => exact .nil _
  | line maxBytes hbody _ ih => exact .line maxBytes hbody ih
  | last maxBytes _ hbody _ ih => exact .last maxBytes rfl hbody ih

end Frames

namespace JsonlStream

variable {newline : Byte} {limit : ℕ} {maxBytes : Option ℕ} {stream : JsonlStream Byte}

/-- Every answer so far framed the stream, up to the chunks and the buffer. -/
def Framed (newline : Byte) (stream : JsonlStream Byte) : Prop :=
  newline ∉ stream.chunks ∧
    Frames newline stream.eof stream.fed stream.answers (stream.chunks ++ stream.buffer)

theorem eq_of_tail {byte : Byte} {rest : List Byte} (htail : stream.tail newline = byte :: rest) :
    byte = newline := by
  have hfirst := List.head?_dropWhile_not (fun byte => decide (byte ≠ newline)) stream.buffer
  rw [tail] at htail
  rw [htail] at hfirst
  simpa using hfirst

theorem framed_readline (hframed : stream.Framed newline)
    (hclear : stream.overruns newline limit maxBytes = false) :
    (stream.readline newline limit maxBytes).Framed newline := by
  have hbuffer := stream.head_append_tail newline
  have hhead : newline ∉ stream.head newline := fun hmem => by
    simpa using List.mem_takeWhile_imp hmem
  fun_induction readline newline limit maxBytes stream with
  | case1 stream hover hexceeds => simp [overruns, hover, hexceeds] at hclear
  | case2 stream hover hfits ih =>
    obtain ⟨hchunks, hframes⟩ := hframed
    rw [← hbuffer, ← List.append_assoc] at hframes
    -- the next round starts at a newline or at the end of the buffer
    have hempty : head newline { stream with
        buffer := stream.tail newline, chunks := stream.chunks ++ stream.head newline } = [] := by
      cases htail : stream.tail newline with
      | nil => rfl
      | cons => simp [head, eq_of_tail htail]
    refine ih ⟨by simp [hchunks, hhead], hframes⟩ ?_ (head_append_tail _ _) ?_
    · simp [overruns, hempty]
    · simp [hempty]
  | case3 stream hshort byte rest htail =>
    obtain rfl := eq_of_tail htail
    obtain ⟨hchunks, hframes⟩ := hframed
    rw [← hbuffer, htail, ← List.append_assoc] at hframes
    exact ⟨List.not_mem_nil, hframes.trans (.line maxBytes (by simp [hchunks, hhead]) (.nil rest))⟩
  | case4 stream hshort htail heof =>
    obtain ⟨hchunks, hframes⟩ := hframed
    rw [← hbuffer, htail, List.append_nil] at hframes
    exact ⟨List.not_mem_nil, hframes.trans (.last maxBytes heof (by simp [hchunks, hhead]) (.nil []))⟩
  | case5 => exact hframed

theorem framed_step {event : StreamEvent Byte} (hframed : stream.Framed newline)
    (hclear : (stream.runs event).all
      (fun maxBytes => !stream.overruns newline limit maxBytes) = true) :
    (stream.step newline limit event).Framed newline := by
  cases event with
  | feed bytes =>
    rw [step]
    split
    · exact hframed
    next heof =>
      refine ⟨hframed.1, ?_⟩
      have hfed := hframed.2
      rw [Bool.not_eq_true] at heof
      rw [heof] at hfed ⊢
      simpa using hfed.fed bytes
  | feedEof => exact ⟨hframed.1, hframed.2.ended⟩
  | cancel => exact hframed
  | call | wake =>
    rw [step]
    revert hclear
    cases runs stream _ with
    | none => exact fun _ => hframed
    | some => exact fun hclear => framed_readline hframed (by simpa using hclear)

/-- The answers of every run that is clear of refused overruns frame the bytes fed. -/
theorem answers_frame_stream (newline : Byte) (limit : ℕ) (events : List (StreamEvent Byte))
    (hclear : clear newline limit {} events = true) :
    (events.foldl (step newline limit) {}).Framed newline := by
  have hinitial : Framed newline ({} : JsonlStream Byte) := ⟨List.not_mem_nil, .nil []⟩
  revert hclear hinitial
  generalize ({} : JsonlStream Byte) = stream
  intro hclear hframed
  induction events generalizing stream with
  | nil => exact hframed
  | cons event events ih =>
    simp only [clear, Bool.and_eq_true] at hclear
    exact ih _ hclear.2 (framed_step hframed hclear.1)

/-- A line longer than the limit, whose first call is cancelled. -/
theorem long_line_framed :
    let events := [.feed [1, 1, 1], .call none, .cancel, .feed [1, 0], .call (some 5)]
    clear 0 2 {} events = true ∧ Framed 0 (events.foldl (step 0 2) {}) :=
  ⟨by decide +kernel, answers_frame_stream 0 2 _ (by decide +kernel)⟩

/-- The one line `1112220` of the stream fails for its size, and its last part is then read as a
record of its own. -/
theorem oversize_line_resurfaces :
    let stream := [.feed [1, 1, 1], .call (some 4), .feed [2, 2, 2], .wake, .feed [0],
      .call (some 4)].foldl (step 0 2) {}
    stream.fed = [1, 1, 1, 2, 2, 2, 0] ∧
      stream.answers = [(some 4, .malformedRecord), (some 4, .record [2, 2, 2, 0])] := by
  decide +kernel

end JsonlStream

end AgentComms.Native
