import ConeFilter.Config
import ConeFilter.Json.Decode
import ConeFilter.Lowering
import ConeFilter.Resolution.Pass
import ConeFilter.Sql.Grammar

/-!
Filters, from text to predicate: the dialect is looked up, the text is read,
the expression is lowered and the tree is resolved. Each stage has its own
failures and the first one ends the work. A tree that resolves to a value is
refused at the very end, after its pass has finished. Only the first two stages
know the language of the text, and both are given by a front end.
-/
namespace ConeFilter

structure Filter where
  predicate : Predicate
  extra : Extra
deriving BEq, Inhabited

inductive FilterError where
  | unknownDialect (name : String)
  | unreadable (fault : Sql.SyntaxFault)
  | unresolved (failure : Failure)

inductive Origin where
  | config
  | text
  | resolver
deriving DecidableEq, Inhabited

/-- What callers tell errors apart by. -/
inductive FilterErrorKind where
  | unknownDialect
  | unreadable
  | unresolved (kind : FailureKind)
deriving DecidableEq, Inhabited

namespace FilterErrorKind

def name : FilterErrorKind → String
  | .unknownDialect => "UnknownDialect"
  | .unreadable => "Parse"
  | .unresolved kind => kind.name

end FilterErrorKind

namespace FilterError

def kind : FilterError → FilterErrorKind
  | .unknownDialect _ => .unknownDialect
  | .unreadable _ => .unreadable
  | .unresolved failure => .unresolved failure.kind

def origin : FilterError → Origin
  | .unknownDialect _ => .config
  | .unreadable _ => .text
  | .unresolved _ => .resolver

/-- How a text fails to be an expression is not described. -/
def message? : FilterError → Option String
  | .unknownDialect name => some ("unknown SQL dialect '" ++ name ++ "'")
  | .unreadable fault => fault.message?
  | .unresolved failure => some failure.message

def failure? : FilterError → Option Failure
  | .unresolved failure => some failure
  | _ => none

end FilterError

namespace Resolution

def toFilter (resolution : Resolution) : Except FilterError Filter :=
  match resolution.value.toPredicate with
  | .ok predicate => .ok { predicate, extra := resolution.extra }
  | .error failure => .error (.unresolved failure)

end Resolution

/-! Front ends look a dialect up by name and read a text with it. -/

structure FrontEnd where
  Dialect : Type
  named : String → Option Dialect
  read : Dialect → String → Except Sql.SyntaxFault Sql.Expr

namespace FrontEnd

def sql : FrontEnd where
  Dialect := Sql.Dialect
  named := Sql.Dialect.named
  read := Sql.parse

variable (front : FrontEnd)

def findDialect (config : Config) : Except FilterError front.Dialect :=
  match front.named config.dialect with
  | none => .error (.unknownDialect config.dialect)
  | some dialect => .ok dialect

def readNode (config : Config) (text : String) : Except FilterError Node :=
  match front.findDialect config with
  | .error fault => .error fault
  | .ok dialect =>
      match front.read dialect text with
      | .error fault => .error (.unreadable fault)
      | .ok expr => .ok (lower expr)

def parse (config : Config) (scope : Scope) (text : String) :
    Except FilterError Filter × List Event :=
  match front.readNode config text with
  | .error fault => (.error fault, [])
  | .ok node =>
      match scope.resolve node with
      | (.error failure, events) => (.error (.unresolved failure), events)
      | (.ok resolution, events) => (resolution.toFilter, events)

end FrontEnd

namespace Config

def findDialect (config : Config) : Except FilterError Sql.Dialect :=
  FrontEnd.sql.findDialect config

def readNode (config : Config) (text : String) : Except FilterError Node :=
  FrontEnd.sql.readNode config text

end Config

namespace Filter

def parse (config : Config) (scope : Scope) (text : String) :
    Except FilterError Filter × List Event :=
  FrontEnd.sql.parse config scope text

def toJson (number : Float → Json) (filter : Filter) : Json :=
  .object
    [("extra", filter.extra.toJson number), ("predicate", filter.predicate.toJson number)]

def ofJson (json : Json) : Option Filter :=
  match json.record? ["predicate", "extra"] with
  | some [predicate, extra] => do
      pure { predicate := ← Predicate.ofJson predicate, extra := ← Extra.ofJson extra }
  | _ => none

end Filter

end ConeFilter
