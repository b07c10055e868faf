import Mathlib.Tactic.Common

-- JSON documents, and Traefik's reading of the routers in a dynamic configuration: the rule language, and which
-- routers match a request.

namespace NeroCD

-- An object is the list of its members in the order of the text, so a name may occur twice.
inductive Json where
  | null
  | bool (value : Bool)
  | number (value : Int)
  | decimal (text : String)
  | string (text : String)
  | array (items : List Json)
  | object (members : List (String × Json))

namespace Json

def items : Json → List Json
  | .array items => items
  | _ => []

def members : Json → List (String × Json)
  | .object members => members
  | _ => []

def memberOf (name : String) (members : List (String × Json)) : Json := (members.lookup name).getD .null

def get (doc : Json) (name : String) : Json := memberOf name doc.members

end Json

namespace Traefik

structure Request where
  host : String
  path : String

section Rules

inductive Token where
  | host (value : List Char)
  | path (value : List Char)
  | pathPrefix (value : List Char)
  | both
  | either
  | opening
  | closing

def strip (start text : List Char) : Option (List Char) :=
  if start.isPrefixOf text then some (text.drop start.length) else none

-- The value of a matcher ends at the next backtick.
def quoted (text : List Char) : Option (List Char × List Char) :=
  (strip "`)".toList (text.dropWhile (· ≠ '\x60'))).map fun rest => (text.takeWhile (· ≠ '\x60'), rest)

def sign (text : String) (token : Token) (source : List Char) : Option (Token × List Char) :=
  (strip text.toList source).map fun rest => (token, rest)

def matcher (name : String) (token : List Char → Token) (source : List Char) : Option (Token × List Char) :=
  ((strip name.toList source).bind quoted).map fun (value, rest) => (token value, rest)

def nextToken (source : List Char) : Option (Token × List Char) :=
  sign " && " .both source <|> sign " || " .either source <|> sign "(" .opening source <|>
    sign ")" .closing source <|> matcher "Host(`" .host source <|> matcher "Path(`" .path source <|>
    matcher "PathPrefix(`" .pathPrefix source

def tokens : Nat → List Char → Option (List Token)
  | _, [] => some []
  | 0, _ :: _ => none
  | n + 1, c :: rest => (nextToken (c :: rest)).bind fun (token, rest) => (tokens n rest).map (token :: ·)

-- `any` and `all` are the values of the alternatives before and of the current one; the stack has both per open
-- bracket.
def evaluate (request : Request) : List (Bool × Bool) → Bool → Bool → List Token → Option Bool
  | [], any, all, [] => some (any || all)
  | _ :: _, _, _, [] => none
  | stack, any, all, .opening :: rest => evaluate request ((any, all) :: stack) false true rest
  | [], _, _, .closing :: _ => none
  | (any', all') :: stack, any, all, .closing :: rest =>
    evaluate request stack any' (all' && (any || all)) rest
  | stack, any, all, .both :: rest => evaluate request stack any all rest
  | stack, any, all, .either :: rest => evaluate request stack (any || all) true rest
  | stack, any, all, .host value :: rest =>
    evaluate request stack any (all && request.host.toList == value) rest
  | stack, any, all, .path value :: rest =>
    evaluate request stack any (all && request.path.toList == value) rest
  | stack, any, all, .pathPrefix value :: rest =>
    evaluate request stack any (all && value.isPrefixOf request.path.toList) rest

def accepts (rule : List Char) (request : Request) : Bool :=
  ((tokens rule.length rule).bind (evaluate request [] false true)).getD false

inductive Reads : List Char → List Token → Prop where
  | done : Reads [] []
  | next {text rest : List Char} {token : Token} {later : List Token} (hNext : nextToken text = some (token, rest))
      (hShorter : rest.length < text.length) (hRest : Reads rest later) : Reads text (token :: later)

theorem Reads.tokens {text : List Char} {read : List Token} (h : Reads text read) :
    ∀ n, text.length ≤ n → Traefik.tokens n text = some read := by
  induction h with
  | done =>
    intro n _
    cases n with
    | zero => rfl
    | succ n => rfl
  | @next text rest _ _ hNext hShorter _ ih =>
    intro n hn
    cases text with
    | nil => exact absurd hShorter (Nat.not_lt_zero _)
    | cons _ _ =>
      cases n with
      | zero => exact absurd hn (Nat.not_succ_le_zero _)
      | succ n =>
        have hRest : rest.length ≤ n := by
          simp only [List.length_cons] at hShorter hn
          omega
        simp only [Traefik.tokens, hNext, Option.bind_some, ih n hRest, Option.map_some]

theorem Reads.accepts {text : List Char} {read : List Token} (h : Reads text read) (request : Request) :
    Traefik.accepts text request = (evaluate request [] false true read).getD false := by
  rw [Traefik.accepts, h.tokens _ (Nat.le_refl _), Option.bind_some]

variable {value : List Char}

theorem quoted_append (h : '\x60' ∉ value) (rest : List Char) :
    quoted (value ++ "`)".toList ++ rest) = some (value, rest) := by
  have hAll : ∀ c ∈ value, decide (c ≠ '\x60') = true := by
    intro c hc
    simp only [ne_eq, decide_not, Bool.not_eq_eq_eq_not, Bool.not_true, decide_eq_false_iff_not]
    exact fun hEq => h (hEq ▸ hc)
  rw [quoted, List.append_assoc, List.dropWhile_append_of_pos hAll, List.takeWhile_append_of_pos hAll]
  simp [strip]

theorem strip_append (start rest : List Char) : strip start (start ++ rest) = some rest := by
  simp [strip]

theorem nextToken_host (h : '\x60' ∉ value) (rest : List Char) :
    nextToken ("Host(`".toList ++ (value ++ "`)".toList ++ rest)) = some (.host value, rest) := by
  have hHost := strip_append "Host(`".toList (value ++ "`)".toList ++ rest)
  simp only [nextToken, matcher, hHost, Option.bind_some, quoted_append h]
  simp [sign, strip]

theorem nextToken_path (h : '\x60' ∉ value) (rest : List Char) :
    nextToken ("Path(`".toList ++ (value ++ "`)".toList ++ rest)) = some (.path value, rest) := by
  have hPath := strip_append "Path(`".toList (value ++ "`)".toList ++ rest)
  simp only [nextToken, matcher, hPath, Option.bind_some, quoted_append h]
  simp [sign, strip]

theorem nextToken_pathPrefix (h : '\x60' ∉ value) (rest : List Char) :
    nextToken ("PathPrefix(`".toList ++ (value ++ "`)".toList ++ rest)) = some (.pathPrefix value, rest) := by
  have hPath := strip_append "PathPrefix(`".toList (value ++ "`)".toList ++ rest)
  simp only [nextToken, matcher, hPath, Option.bind_some, quoted_append h]
  simp [sign, strip]

theorem nextToken_both (rest : List Char) : nextToken (" && ".toList ++ rest) = some (.both, rest) := by
  simp [nextToken, sign, strip]

theorem nextToken_either (rest : List Char) : nextToken (" || ".toList ++ rest) = some (.either, rest) := by
  simp [nextToken, sign, strip]

theorem nextToken_opening (rest : List Char) : nextToken ("(".toList ++ rest) = some (.opening, rest) := by
  simp [nextToken, sign, strip]

theorem nextToken_closing (rest : List Char) : nextToken (")".toList ++ rest) = some (.closing, rest) := by
  simp [nextToken, sign, strip]

end Rules

section Routers

structure Router where
  name : String
  rule : String
  entryPoints : List String
  service : String
  priority : Int
  deriving DecidableEq

def members (doc : Json) (part : String) : List (String × Json) := ((doc.get "http").get part).members

def names (doc : Json) (part : String) : List String := (members doc part).map Prod.fst

def text : Json → Option String
  | .string value => some value
  | _ => none

-- A router without a priority has the length of its rule.
def priority (rule : String) : Json → Int
  | .number value => value
  | _ => rule.length

def readRouter (member : String × Json) : Option Router := do
  let rule ← text (member.2.get "rule")
  let entryPoints ← (member.2.get "entryPoints").items.mapM text
  let service ← text (member.2.get "service")
  some ⟨member.1, rule, entryPoints, service, priority rule (member.2.get "priority")⟩

def routers (doc : Json) : List Router := (members doc "routers").filterMap readRouter

def Router.serves (router : Router) (entryPoint : String) (request : Request) : Bool :=
  router.entryPoints.contains entryPoint && accepts router.rule.toList request

def matching (doc : Json) (entryPoint : String) (request : Request) : List Router :=
  (routers doc).filter fun router => router.serves entryPoint request

end Routers

end Traefik

end NeroCD
