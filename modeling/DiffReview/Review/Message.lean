import DiffReview.Text.Quoted

/-!
# Messages and their texts

Every text that the review shows is one of a fixed set of messages in one of two languages. A text
is a template; the only thing that varies in one is a count.
-/

namespace DiffReview

/-- A language of the messages. -/
inductive Locale
  | en
  | zh
deriving DecidableEq

/-- A language without messages. -/
structure UnsupportedLocale where
  name : String
deriving DecidableEq

namespace UnsupportedLocale

def message (e : UnsupportedLocale) : String := "Unsupported locale: " ++ e.name

end UnsupportedLocale

namespace Locale

def all : List Locale := [.en, .zh]

def name : Locale → String
  | .en => "en"
  | .zh => "zh"

/-- The language of a name. -/
def ofName (name : String) : Except UnsupportedLocale Locale :=
  match Text.named? all Locale.name name with
  | some locale => .ok locale
  | none => .error ⟨name⟩

/-- The name of a language stands for it. -/
@[simp] theorem ofName_name (locale : Locale) : ofName locale.name = .ok locale := by
  cases locale <;> rfl

end Locale

/-- A message of the review: the first six report findings, the others suggest. -/
inductive Message
  | consoleLog
  | evalCall
  | commentedCode
  | printCall
  | bareExcept
  | largeChange
  | useJsLinters
  | addJsdoc
  | usePyFormatter
  | useTypeHints
  | splitLargeChanges
deriving DecidableEq

/-- A part of a template. -/
inductive Piece
  | text (s : String)
  | count
deriving DecidableEq

namespace Message

def all : List Message :=
  [.consoleLog, .evalCall, .commentedCode, .printCall, .bareExcept, .largeChange, .useJsLinters,
   .addJsdoc, .usePyFormatter, .useTypeHints, .splitLargeChanges]

def name : Message → String
  | .consoleLog => "console_log"
  | .evalCall => "eval_call"
  | .commentedCode => "commented_code"
  | .printCall => "print_call"
  | .bareExcept => "bare_except"
  | .largeChange => "large_change"
  | .useJsLinters => "use_js_linters"
  | .addJsdoc => "add_jsdoc"
  | .usePyFormatter => "use_py_formatter"
  | .useTypeHints => "use_type_hints"
  | .splitLargeChanges => "split_large_changes"

/-- The message of a name. -/
def ofName (name : String) : Except UnknownName Message :=
  Text.named "Message" all Message.name name

/-- The name of a message stands for it. -/
@[simp] theorem named?_name (m : Message) : Text.named? all name m.name = some m := by
  cases m <;> rfl

/-- The template of a message in a language. -/
def template : Locale → Message → List Piece
  | .en, .consoleLog =>
    [.text "Code contains a console.log statement, remove it before shipping to production"]
  | .en, .evalCall => [.text "Code uses eval, which may introduce security risks"]
  | .en, .commentedCode =>
    [.text "Large block of commented-out code, consider removing unused code"]
  | .en, .printCall =>
    [.text "Code contains a print statement, use logging in production code"]
  | .en, .bareExcept =>
    [.text "Catch-all exception handler, specify the exception types to catch"]
  | .en, .largeChange =>
    [.text "This file adds a large amount of code (", .count,
     .text " lines), consider splitting it into smaller commits"]
  | .en, .useJsLinters =>
    [.text "Consider using ESLint and Prettier to keep the code style consistent"]
  | .en, .addJsdoc => [.text "Consider adding JSDoc documentation to complex functions"]
  | .en, .usePyFormatter => [.text "Consider formatting Python code with Black or YAPF"]
  | .en, .useTypeHints => [.text "Use type hints to improve code readability"]
  | .en, .splitLargeChanges =>
    [.text "Consider splitting large changes into several smaller commits to ease review"]
  | .zh, .consoleLog => [.text "代码中包含console.log语句，生产环境中应移除"]
  | .zh, .evalCall => [.text "使用了eval函数，可能导致安全风险"]
  | .zh, .commentedCode => [.text "存在大块注释代码，建议移除未使用代码"]
  | .zh, .printCall => [.text "代码中包含print语句，生产环境中应使用日志"]
  | .zh, .bareExcept => [.text "使用了通用异常捕获，应指定具体异常类型"]
  | .zh, .largeChange =>
    [.text "此文件添加了大量代码(", .count, .text "行)，建议拆分为更小的提交"]
  | .zh, .useJsLinters => [.text "考虑使用ESLint和Prettier保持代码风格一致"]
  | .zh, .addJsdoc => [.text "对于复杂函数，考虑添加JSDoc文档"]
  | .zh, .usePyFormatter => [.text "考虑使用Black或YAPF格式化Python代码"]
  | .zh, .useTypeHints => [.text "使用类型提示(Type Hints)增强代码可读性"]
  | .zh, .splitLargeChanges => [.text "考虑将大型变更拆分为多个小型提交，便于审查"]

end Message

namespace Piece

/-- The text of a part when a count is filled in. -/
def fill (count : String) : Piece → String
  | .text s => s
  | .count => count

end Piece

namespace Message

/-- The text of a message with a count filled in. -/
def text (locale : Locale) (message : Message) (count : String) : String :=
  String.join ((message.template locale).map (Piece.fill count))

/-- The text of a message; none if its template needs a count and there is none. -/
def text? (locale : Locale) (message : Message) : Option String → Option String
  | some count => some (message.text locale count)
  | none => if .count ∈ message.template locale then none else some (message.text locale "")

end Message

/-- A value to be filled into a template. -/
inductive FillValue
  | number (n : Int)
  | text (s : String)
  | truth (b : Bool)
  | nothing
deriving DecidableEq

namespace FillValue

/-- The form in which a value is filled in. A text is not quoted. -/
def shown : FillValue → String
  | .number n => toString n
  | .text s => s
  | .truth true => "True"
  | .truth false => "False"
  | .nothing => "None"

end FillValue

/-- How the look-up of a text can fail. -/
inductive LookupError
  | locale (e : UnsupportedLocale)
  | message (e : UnknownName)
  | missingCount
deriving DecidableEq

/-- Looks up a text by the names of its language and its message. -/
def lookupText (locale message : String) (count : Option FillValue) :
    Except LookupError String :=
  match Locale.ofName locale with
  | .error e => .error (.locale e)
  | .ok locale =>
    match Message.ofName message with
    | .error e => .error (.message e)
    | .ok message =>
      match message.text? locale (count.map FillValue.shown) with
      | some text => .ok text
      | none => .error .missingCount

end DiffReview
