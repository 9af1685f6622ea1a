import RecordRules.Draft.Json
import RecordRules.Failure
import RecordRules.Record.Json
import RecordRules.Rule.Json

/-!
# Sessions

A **session** is what is kept between commands: the settings, the cache and
the rules, each rule in a slot that a command names. `Session.step` carries
out one command and gives its outcome together with the session after it.

A command that fails leaves the settings and the rules as they were. It leaves
the cache as it was, too, unless the text it came with was read and the record
was then found wanting.
-/

namespace RecordRules

/-- **What is kept between commands.** -/
structure Session where
  /-- The settings that apply. -/
  settings : Settings := {}
  /-- The texts that are remembered. -/
  cache : Cache := Table.empty
  /-- The rules that have been made, by slot. -/
  rules : Table Rule := Table.empty
  deriving DecidableEq, Repr

namespace Session

open Failure (lift)

/-! ## Commands -/

/-- **Where a tree comes from.** -/
inductive Source where
  /-- The text of a rule. -/
  | text (text : String)
  /-- The text of a rule, its conditions not checked. -/
  | unchecked (text : String)
  /-- The JSON text of a draft. -/
  | json (text : String)
  /-- A draft. -/
  | draft (draft : Draft)
  /-- A tree, not checked at all. -/
  | tree (tree : Tree)
  /-- The rule in a slot. -/
  | rule (slot : String)
  deriving DecidableEq, Repr

/-- **Where a record comes from.** -/
inductive RecordSource where
  /-- JSON text, read as any value first. -/
  | json (text : String)
  /-- JSON text that has to be a record. -/
  | encoded (text : String)
  /-- A record. -/
  | record (record : Record)
  deriving DecidableEq, Repr

/-- **A command.** -/
inductive Command where
  /-- The tree of a source. -/
  | tree (source : Source)
  /-- The tree of a source, checked. -/
  | check (source : Source)
  /-- Whether a record satisfies a tree. -/
  | evaluate (source : Source) (record : RecordSource)
  /-- The trees of the sources combined. -/
  | combine (sources : List Source)
  /-- Replaces the settings by those of the JSON text. -/
  | install (json : String)
  /-- The tree of a text, by the cache. -/
  | read (text : String)
  /-- Whether a record satisfies a text, by the cache. -/
  | decide (text : String) (record : RecordSource)
  /-- Forgets all texts. -/
  | clearCache
  /-- Makes the rule of a tree. -/
  | newRule (slot name : String) (source : Source)
  /-- Makes the rule of a text. -/
  | ruleOfText (slot name text : String)
  /-- Makes the rule of an expression, which is given as JSON text. -/
  | ruleOfExpression (slot name json : String)
  /-- Makes the rule that JSON text describes. -/
  | ruleOfJson (slot json : String)
  /-- Gives a rule another name and tree. -/
  | updateRule (slot name : String) (source : Source)
  /-- Makes the rule that combines others. -/
  | combineRules (slot : String) (rules : List String) (name : Option String)
  /-- The rule in a slot. -/
  | getRule (slot : String)
  /-- Whether a record satisfies the rule in a slot. -/
  | evaluateRule (slot : String) (record : RecordSource)
  deriving DecidableEq, Repr

/-- **The answer** to a command that succeeds. -/
inductive Answer where
  | done
  | truth (value : Bool)
  | tree (tree : Tree)
  | settings (settings : Settings)
  | rule (rule : Rule)
  /-- The rule after an attempt to update it, and the error if it failed. -/
  | updated (error : Option Error) (rule : Rule)
  deriving DecidableEq, Repr

/-! ## Sources -/

/-- The rule in the slot. -/
def getRule (s : Session) (slot : String) : Except Failure Rule :=
  match s.rules.get? slot with
  | some rule => .ok rule
  | none => .error .noSuchRule

/-- **The tree of a source.** -/
def treeOf (s : Session) : Source → Except Failure Tree
  | .text text => lift (Tree.ofText s.settings.maxDepth text)
  | .unchecked text => lift (Tree.parse s.settings.maxDepth text)
  | .json text => lift (do (← Draft.ofJson text).validate s.settings.maxDepth)
  | .draft draft => lift (draft.validate s.settings.maxDepth)
  | .tree t => .ok t
  | .rule slot => (s.getRule slot).map Rule.root

/-- **The record of a source.** -/
def RecordSource.toRecord : RecordSource → Except Error Record
  | json text => Record.ofJson text
  | encoded text => Record.decode text
  | record r => .ok r

/-! ## Steps -/

/-- What comes of a command or a call, and the session after it. -/
abbrev Outcome (α : Type) := Except Failure α × Session

/-- Answers and leaves the session as it is. -/
def answer {α β : Type} (s : Session) (make : α → β) (outcome : Except Failure α) :
    Outcome β :=
  (outcome.map make, s)

/-- Answers with the rule and puts it into the slot, if there is one. -/
def keepRule {β : Type} (s : Session) (slot : String) (make : Rule → β) :
    Except Failure Rule → Outcome β
  | .ok rule => (.ok (make rule), { s with rules := s.rules.insert slot rule })
  | .error f => (.error f, s)

/-- Asks something of the tree of a text, which is read by the cache; the text
stays remembered whatever the answer. -/
def readThen {β : Type} (s : Session) (text : String) (ask : Tree → Except Failure β) :
    Outcome β :=
  match s.cache.read s.settings text with
  | .ok (t, cache) => (ask t, { s with cache := cache })
  | .error e => (.error (.error e), s)

/-- Gives the rule in the slot another name and tree; that this failed is an
answer, too. -/
def update (s : Session) (slot name : String) (root : Tree) :
    Outcome Answer :=
  match s.getRule slot with
  | .error f => (.error f, s)
  | .ok rule =>
    match rule.update s.settings.maxDepth name root with
    | .ok after =>
      (.ok (.updated none after), { s with rules := s.rules.insert slot after })
    | .error e => (.ok (.updated (some e) rule), s)

/-- **Carries out a command.** -/
def step (s : Session) : Command → Outcome Answer
  | .tree source => s.answer .tree (s.treeOf source)
  | .check source => s.answer .tree do
      let t ← s.treeOf source
      lift (t.check s.settings.maxDepth)
      return t
  | .evaluate source record => s.answer .truth do
      let t ← s.treeOf source
      lift (do t.evaluate (← record.toRecord))
  | .combine sources => s.answer .tree do
      let trees ← sources.mapM s.treeOf
      lift (Tree.combine s.settings.maxDepth trees)
  | .install json =>
    match Settings.ofJson json with
    | .ok settings => (.ok (.settings settings), { s with settings := settings })
    | .error e => (.error (.error e), s)
  | .read text => s.readThen text fun t => .ok (.tree t)
  | .decide text record =>
    match record.toRecord with
    | .ok r => s.readThen text fun t => (lift (t.evaluate r)).map .truth
    | .error e => (.error (.error e), s)
  | .clearCache => (.ok .done, { s with cache := Table.empty })
  | .newRule slot name source => s.keepRule slot .rule do
      let root ← s.treeOf source
      lift (Rule.ofTree s.settings.maxDepth name root)
  | .ruleOfText slot name text =>
    s.keepRule slot .rule (lift (Rule.ofText s.settings.maxDepth name text))
  | .ruleOfExpression slot name json => s.keepRule slot .rule (lift do
      Rule.ofExpression s.settings.maxDepth name (← Rule.Expression.ofJson json))
  | .ruleOfJson slot json =>
    s.keepRule slot .rule (lift (Rule.ofJson s.settings.maxDepth json))
  | .updateRule slot name source =>
    match s.treeOf source with
    | .ok root => s.update slot name root
    | .error f => (.error f, s)
  | .combineRules slot rules name => s.keepRule slot .rule do
      let members ← rules.mapM s.getRule
      lift (Rule.combine s.settings members name)
  | .getRule slot => s.answer .rule (s.getRule slot)
  | .evaluateRule slot record => s.answer .truth do
      let rule ← s.getRule slot
      lift (do rule.evaluate s.settings (← record.toRecord))

/-- The session after the commands, one after the other. -/
def run (s : Session) (commands : List Command) : Session :=
  commands.foldl (fun s c => (s.step c).2) s

end Session

end RecordRules
