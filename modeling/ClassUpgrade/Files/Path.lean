/-
# Files.Path — paths as texts

A path is a text of segments between slashes. Cleaning gives the shortest
path that names the same place without looking at any directory.
-/
import ClassUpgrade.Text.Basic

namespace ClassUpgrade.Path

set_option autoImplicit false

open Byte

/-- The segments of a path, empty ones included. -/
def segments (p : Text) : List Text := Text.splitOn slash p

def ofSegments (segments : List Text) : Text := Text.join [slash] segments

/-- A path that starts at the root of the file system. -/
def isRooted (p : Text) : Bool := p.head? == some slash

/-- The segment for the place itself. -/
def here : Text := [dot]

/-- The segment for the directory above. -/
def above : Text := [dot, dot]

/-- The segments without the empty ones, those for the place itself, and those that the segment
for the directory above takes back; `done` holds the segments kept so far, last first. Above the
root of a rooted path there is only the root. -/
def reduce (rooted : Bool) : (done : List Text) → List Text → List Text
  | done, [] => done.reverse
  | done, s :: rest =>
    if s = [] ∨ s = here then reduce rooted done rest
    else if s = above then
      match done with
      | [] => if rooted then reduce rooted [] rest else reduce rooted [above] rest
      | last :: others =>
        if last = above then reduce rooted (above :: done) rest else reduce rooted others rest
    else reduce rooted (s :: done) rest

/-- The shortest path for the same place. -/
def clean (p : Text) : Text :=
  let kept := reduce (isRooted p) [] (segments p)
  if isRooted p then slash :: ofSegments kept
  else if kept.isEmpty then here
  else ofSegments kept

def name (p : Text) : Text := (segments p).getLast?.getD []

/-- The part of the last segment from its last dot on, empty without a dot. -/
def extension (p : Text) : Text :=
  let reversed := (name p).reverse
  let tail := reversed.takeWhile (· != dot)
  if tail.length = reversed.length then [] else dot :: tail.reverse

end ClassUpgrade.Path
