import RespBus.Buffers
import RespBus.Scanner

/-!
# The Framer

The framer receives what each read brought and hands out the messages that
are now complete. What it holds back is all its state: the bytes of the
unfinished message, and with reply framing the scanner's progress over them.

Short-read framing knows nothing of replies. A read that fills its chunk
says nothing; one that brings less ends the message, which is everything
held back so far. Replies whose total length is a multiple of the chunk size
are held back until a later read comes short, and replies that arrive
together come out together. Such a message is counted afterwards: it holds
as many replies as it starts with, and at least one.

Reply framing cuts where replies end, any number of them per read. Bytes that
are no reply make the whole read fail. The messages the same read had
already completed are then gone, and the buffer is left without them.

A framer is made with room for some bytes to be held back. Under a mode that
asks for more than there can be, none is made.

## Main definitions

* `Framer`: The bytes held back under a framing mode.
* `Framer.start`: The framer before the first read.
* `Framer.create`: The same, if its buffers can be had.
* `Framer.mode`: The framing mode a framer works under.
* `Framer.held`: The bytes held back.
* `splitFrames`: Every complete reply cut off the front of a buffer.
* `Framer.push`: What one read completes, and the framer afterwards.
* `Framer.repliesIn`: How many replies a message stands for.
-/

namespace RespBus

/-- The bytes held back under a framing mode. -/
inductive Framer where
  /-- Everything since the last short read. -/
  | shortRead (chunkSize : Nat) (held : Bytes)
  /-- The unfinished reply, with the scanner's progress over it. -/
  | resp (held : Bytes) (scanner : Scanner)

/-- What cutting the replies off a buffer comes to. -/
structure Split where
  /-- The replies cut off, or what is wrong with the one after them. -/
  frames : Except Fault (List Bytes)
  /-- What is left of the buffer. -/
  held : Bytes
  /-- The progress over what is left. -/
  scanner : Scanner

/-- Cuts complete replies off the front of a buffer, collecting them last
    first, until the rest is incomplete or no reply at all. -/
def splitFrames (done : List Bytes) (scanner : Scanner) (buffer : Bytes) : Split :=
  match h : scanner.scan buffer with
  | (.incomplete, next) => ⟨.ok done.reverse, buffer, next⟩
  | (.invalid fault, next) => ⟨.error fault, buffer, next⟩
  | (.complete length, next) =>
    -- A reply is never empty, so what follows it is shorter.
    have := Scanner.scan_complete h
    splitFrames (buffer.take length :: done) next (buffer.drop length)
termination_by buffer.length

namespace Framer

/-- The framer of a mode before the first read. -/
def start : Framing → Framer
  | .shortRead chunkSize => shortRead chunkSize []
  | .resp => resp [] {}

/-- The framer of a mode before the first read, if the buffers that the mode
    asks for can be had. -/
def create (mode : Framing) : Except Unreservable Framer :=
  match mode.reserve with
  | .error cause => .error cause
  | .ok () => .ok (start mode)

/-- The framing mode a framer works under. -/
def mode : Framer → Framing
  | shortRead chunkSize _ => .shortRead chunkSize
  | resp _ _ => .resp

/-- The bytes held back. -/
def held : Framer → Bytes
  | shortRead _ held => held
  | resp held _ => held

/-- The messages that the bytes of one read complete, and the framer after
    that read. -/
def push : Framer → Bytes → Except Fault (List Bytes) × Framer
  | shortRead chunkSize held, chunk =>
    -- The message may be longer than the read that ends it.
    if chunk.length < chunkSize then (.ok [held ++ chunk], shortRead chunkSize [])
    else (.ok [], shortRead chunkSize (held ++ chunk))
  | resp held scanner, chunk =>
    let split := splitFrames [] scanner (held ++ chunk)
    (split.frames, resp split.held split.scanner)

/-- How many replies a message stands for. A message cut at the end of a
    reply is one; any other holds as many as it starts with, and at least
    one. -/
def repliesIn (framer : Framer) (frame : Bytes) : Nat :=
  match framer.mode with
  | .shortRead _ => max (countReplies frame) 1
  | .resp => 1

end Framer

end RespBus
