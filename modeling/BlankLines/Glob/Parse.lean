import BlankLines.Glob.Pattern

/-!
# Glob — Parse

Reading a glob pattern from its text.

A reader keeps the branch it is in and, innermost first, the groups that are open around it.  Two
stars in a row mean directories where they stand alone between slashes or ends, and two plain stars
anywhere else.

* `readClass`: the members of a class, up to its closing bracket.
* `State.doubleStar`: what two stars mean.
* `parse`: the whole text.
-/

namespace BlankLines.Glob

/-- Ends the last range at `c`. -/
def extendRange (ranges : List (Char × Char)) (c : Char) : Except Fault (List (Char × Char)) :=
  match ranges with
  | [] => .ok []
  | (first, _) :: rest =>
    if c < first then .error (.invalidRange first c) else .ok ((first, c) :: rest)

/-- Reads the members of a class after those in `ranges` (last first), and what follows its closing
bracket; `inRange` says that a `-` came just before. -/
def readMembers (ranges : List (Char × Char)) (inRange : Bool) :
    List Char → Except Fault (List (Char × Char) × List Char)
  | [] => .error .unclosedClass
  | c :: rest =>
    if c = ']' then
      .ok ((if inRange then ('-', '-') :: ranges else ranges).reverse, rest)
    else if inRange then
      match extendRange ranges c with
      | .ok ranges => readMembers ranges false rest
      | .error f   => .error f
    else if c = '-' then readMembers ranges true rest
    else readMembers ((c, c) :: ranges) false rest

/-- Reads a class whose first member comes next: a `]` or `-` there is a member. -/
def readFirst (negated : Bool) : List Char → Except Fault (Token × List Char)
  | [] => .error .unclosedClass
  | c :: rest => (readMembers [(c, c)] false rest).map fun (ranges, after) =>
    (.oneOf negated ranges, after)

/-- Reads a class after its opening bracket. -/
def readClass (cs : List Char) : Except Fault (Token × List Char) :=
  match cs with
  | '!' :: rest => readFirst true rest
  | '^' :: rest => readFirst true rest
  | _ => readFirst false cs

theorem length_readMembers {ranges members : List (Char × Char)} {inRange : Bool}
    {cs rest : List Char} (h : readMembers ranges inRange cs = .ok (members, rest)) :
    rest.length < cs.length := by
  induction cs generalizing ranges inRange with
  | nil => simp [readMembers] at h
  | cons c cs ih =>
    unfold readMembers at h
    split at h
    · obtain ⟨-, rfl⟩ := Prod.mk.inj (Except.ok.inj h)
      simp
    · split at h
      · split at h
        · exact Nat.lt_succ_of_lt (ih h)
        · cases h
      · split at h
        · exact Nat.lt_succ_of_lt (ih h)
        · exact Nat.lt_succ_of_lt (ih h)

theorem length_readFirst {negated : Bool} {cs rest : List Char} {t : Token}
    (h : readFirst negated cs = .ok (t, rest)) : rest.length < cs.length := by
  cases cs with
  | nil => cases h
  | cons c cs =>
    cases hm : readMembers [(c, c)] false cs with
    | error f => simp [readFirst, hm, Except.map] at h
    | ok r =>
      simp only [readFirst, hm, Except.map] at h
      obtain ⟨-, rfl⟩ := Prod.mk.inj (Except.ok.inj h)
      exact Nat.lt_succ_of_lt (length_readMembers hm)

theorem length_readClass {cs rest : List Char} {t : Token} (h : readClass cs = .ok (t, rest)) :
    rest.length < cs.length := by
  unfold readClass at h
  split at h
  · exact Nat.lt_succ_of_lt (length_readFirst h)
  · exact Nat.lt_succ_of_lt (length_readFirst h)
  · exact length_readFirst h

/-- An open group: the tokens before it in its branch, last first, and its finished branches, last
first. -/
structure Group where
  before : List Token
  branches : List Pattern

/-- The tokens of the branch being read, last first, and the open groups, innermost first. -/
structure State where
  tokens : List Token := []
  groups : List Group := []

namespace State

/-- Adds a token to the branch. -/
def push (s : State) (t : Token) : State :=
  { s with tokens := t :: s.tokens }

/-- Opens a group. -/
def openGroup (s : State) : State :=
  ⟨[], ⟨s.tokens, []⟩ :: s.groups⟩

/-- Starts the next branch; outside groups a comma is itself. -/
def comma (s : State) : State :=
  match s.groups with
  | [] => s.push (.literal ',')
  | g :: rest => ⟨[], { g with branches := s.tokens.reverse :: g.branches } :: rest⟩

/-- Closes the innermost group. -/
def closeGroup (s : State) : Except Fault State :=
  match s.groups with
  | [] => .error .unopenedAlternates
  | g :: rest =>
    .ok ⟨.alternates (s.tokens.reverse :: g.branches).reverse :: g.before, rest⟩

/-- Puts directories in the place of the last token, unless that stands for directories itself. -/
def replaceLast (s : State) (t : Token) : State :=
  match s.tokens with
  | .leading :: _  => s
  | .trailing :: _ => s
  | _ :: before    => { s with tokens := t :: before }
  | []             => { s with tokens := [t] }

/-- What two stars mean after the character `before?` and ahead of `next`, and whether they take
the slash that comes next. -/
def doubleStar (s : State) (before? : Option Char) (next : List Char) : State × Bool :=
  let plain := ((s.push .star).push .star, false)
  let inGroup := !s.groups.isEmpty
  if s.tokens.isEmpty then
    match next.head? with
    | none     => (s.push .leading, false)
    | some '/' => (s.push .leading, true)
    | _        => plain
  else if before? ≠ some '/' && !(inGroup && (before? = some ',' || before? = some '{')) then plain
  else
    match next.head? with
    | none     => (s.replaceLast .trailing, false)
    | some '/' => (s.replaceLast .middle, true)
    | some ',' => if inGroup then (s.replaceLast .trailing, false) else plain
    | some '}' => if inGroup then (s.replaceLast .trailing, false) else plain
    | _        => plain

end State

/-- Reads on from a state; `before?` is the character just before. -/
def parseFrom (s : State) (before? : Option Char) (cs : List Char) : Except Fault Pattern :=
  match cs with
  | [] => if s.groups.isEmpty then .ok s.tokens.reverse else .error .unclosedAlternates
  | '?' :: rest => parseFrom (s.push .any) '?' rest
  | '*' :: '*' :: rest =>
    match s.doubleStar before? rest with
    | (s, true)  => parseFrom s '/' (rest.drop 1)
    | (s, false) => parseFrom s '*' rest
  | '*' :: rest => parseFrom (s.push .star) '*' rest
  | '[' :: rest =>
    match h : readClass rest with
    | .ok (t, after) =>
      have : after.length < rest.length := length_readClass h
      parseFrom (s.push t) ']' after
    | .error f => .error f
  | '{' :: rest => parseFrom s.openGroup '{' rest
  | '}' :: rest =>
    match s.closeGroup with
    | .ok s    => parseFrom s '}' rest
    | .error f => .error f
  | ',' :: rest => parseFrom s.comma ',' rest
  | '\\' :: [] => .error .danglingEscape
  | '\\' :: c :: rest => parseFrom (s.push (.literal c)) c rest
  | c :: rest => parseFrom (s.push (.literal c)) c rest
termination_by cs.length
decreasing_by all_goals simp; try omega

/-- Reads a whole pattern. -/
def parse (text : String) : Except Fault Pattern :=
  parseFrom {} none text.toList

end BlankLines.Glob
