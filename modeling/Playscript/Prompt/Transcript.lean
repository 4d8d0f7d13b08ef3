import Playscript.Prompt.Basic
/-! The text of a conversation at the prompt, for input that is known in advance. -/
namespace Playscript

namespace Act

def text (d : Display) : Act Float → String
  | .page items => d.page items
  | .line text => Display.line text
  | .wait _ => ""

def time {α : Type} : Act α → Duration
  | .wait delay => delay
  | _ => .zero

end Act

namespace Prompt

def textOf (d : Display) (acts : List (Act Float)) : String :=
  String.join (acts.map (Act.text d))

def timeOf {α : Type} (acts : List (Act α)) : Duration :=
  acts.foldl (fun t act => t + act.time) .zero

/-- A line of the input without its end. -/
def dropLineEnd (line : String) : String :=
  String.ofList (line.toList.reverse.dropWhile fun c => c == '\n' || c == '\r').reverse

def inputLines (input : String) : List String :=
  (Text.linesOf input).map dropLineEnd

/-- The conversation from the end of the input on. -/
def conclude (d : Display) (p : Prompt Float) : String × Prompt Float :=
  let first := p.endOfInput
  if first.2.closed then (p.cue ++ textOf d first.1, first.2)
  else
    let second := first.2.endOfInput
    (p.cue ++ textOf d first.1 ++ first.2.cue ++ textOf d second.1, second.2)

/-- The conversation over some lines, in which only waiting takes time. -/
def converse (d : Display) (o : Outside) (p : Prompt Float) : List String → String × Prompt Float
  | [] => p.conclude d
  | line :: rest =>
      let answered := p.respond o line
      let said := p.cue ++ textOf d answered.1
      if answered.2.closed then (said, answered.2)
      else
        let later := answered.2.converse d { o with now := o.now + timeOf answered.1 } rest
        (said ++ later.1, later.2)

/-- The conversation of a campaign from its first page on. -/
def play (d : Display) (o : Outside) (c : Campaign Float) (input : String) :
    String × Prompt Float :=
  let opened := start c o.now
  let later := opened.2.converse d o (inputLines input)
  (textOf d opened.1 ++ later.1, later.2)

end Prompt

end Playscript
