import TapeMachine.Proofs.Token.Alike

/-!
Contract: tokens and errors of a text that goes by another name.

Owns: the renaming of everything that carries the name of its source, its agreement with lexing and
with what readers ask, and the answers of lexers over buffers that are alike.
-/

namespace TapeMachine

def Lexeme.inSource (name : String) (lexeme : Lexeme) : Lexeme :=
  { lexeme with source := name }

def LexError.inSource (name : String) (error : LexError) : LexError :=
  { error with source := name }

def LexerAnswer.inSource (name : String) : LexerAnswer → LexerAnswer
  | .done => .done
  | .token (.ok lexeme) => .token (.ok (lexeme.map (Lexeme.inSource name)))
  | .token (.error error) => .token (.error (error.inSource name))
  | .follows (.ok value) => .follows (.ok value)
  | .follows (.error error) => .follows (.error (error.inSource name))
  | .depth count => .depth count

/-! ## Passages -/

namespace Passage

def inSource (name : String) (passage : Passage) : Passage :=
  { passage with name := name }

/-- The tokens of a passage and its end go by the name of the passage. -/
theorem lex_inSource (name : String) (passage : Passage) :
    (passage.inSource name).lex =
      (passage.lex.1.map (Lexeme.inSource name), passage.lex.2.map (LexError.inSource name)) := by
  induction passage using lex.induct with
  | case1 passage found =>
      have finished := front_eq_nothing found
      have same : (passage.inSource name).front = .nothing := front_of_nil finished
      rw [lex_of_nothing found, lex_of_nothing same]
      rfl
  | case2 passage error found =>
      obtain ⟨glyph, rest, content, unknown, rfl⟩ := front_eq_unknown found
      have same := @front_of_none (passage.inSource name) glyph rest content unknown
      rw [lex_of_unknown found, lex_of_unknown same]
      rfl
  | case3 passage lexeme rest found shorter inductionHypothesis =>
      obtain ⟨kind, text, chosen, extracted, rfl, rfl⟩ := front_eq_token found
      have same := @front_of_some (passage.inSource name) kind text chosen extracted
      rw [lex_of_token found, lex_of_token same]
      exact congrArg (fun lexed => (_ :: lexed.1, lexed.2)) inductionHypothesis

end Passage

/-! ## Outlooks -/

namespace Outlook

def inSource (name : String) (outlook : Outlook) : Outlook where
  ahead := outlook.ahead.map (Lexeme.inSource name)
  marked := outlook.marked.map fun place => place.map (Lexeme.inSource name)
  ending := outlook.ending.map (LexError.inSource name)

theorem respond_inSource (name : String) (outlook : Outlook) (request : LexerRequest) :
    (outlook.inSource name).respond request =
      ((outlook.respond request).1.inSource name, (outlook.respond request).2.inSource name) := by
  rcases outlook with ⟨ahead, marked, ending⟩
  cases request with
  | next => cases ahead <;> cases ending <;> rfl
  | hasNext => cases ahead <;> cases ending <;> rfl
  | openMark => rfl
  | rewindMark => cases marked <;> rfl
  | closeMark => cases marked <;> rfl
  | depth => simp [respond, inSource, LexerAnswer.inSource]

theorem answers_inSource (name : String) (outlook : Outlook) (requests : List LexerRequest) :
    (outlook.inSource name).answers requests =
      (outlook.answers requests).map (LexerAnswer.inSource name) := by
  induction requests generalizing outlook with
  | nil => rfl
  | cons request others inductionHypothesis =>
      simp only [answers, respond_inSource, inductionHypothesis, List.map_cons]

end Outlook

/-! ## Lexers over buffers that are alike -/

theorem Buffer.Alike.passage {first second : Buffer} (alike : Alike first second) :
    first.passage = second.passage.inSource first.name := by
  rw [Buffer.passage, alike.content, alike.line]
  rfl

theorem Buffer.Alike.outlook {first second : Buffer} (alike : Alike first second) :
    (Lexer.ofBuffer first).outlook = (Lexer.ofBuffer second).outlook.inSource first.name := by
  rw [Lexer.outlook_ofBuffer, Lexer.outlook_ofBuffer, alike.passage, Passage.lex_inSource]
  rfl

/-- Lexers over buffers that are alike give the same answers, each under the name of its source. -/
theorem Buffer.Alike.answers {first second : Buffer} (alike : Alike first second)
    (soundFirst : first.Sound) (soundSecond : second.Sound) (requests : List LexerRequest) :
    (Lexer.ofBuffer first).answers requests =
      ((Lexer.ofBuffer second).answers requests).map (LexerAnswer.inSource first.name) := by
  rw [Lexer.answers_eq_outlook (Lexer.steady_ofBuffer soundFirst),
    Lexer.answers_eq_outlook (Lexer.steady_ofBuffer soundSecond), alike.outlook,
    Outlook.answers_inSource]

end TapeMachine
