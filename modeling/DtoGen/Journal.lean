import DtoGen.Mention

namespace DtoGen

/-- Why code cannot be rendered. -/
inductive RenderError where
  | indistinct (union : String) (members : List String)
  | missingConstant (union member discriminator : String)
  | tooManyMembers (type : String) (maximum : Int) (count : Nat)
deriving DecidableEq, Repr

def RenderError.message : RenderError → String
  | .indistinct u ms =>
    "Union '" ++ u ++ "': no heuristic distinguishes members " ++ ", ".intercalate ms
  | .missingConstant u m d =>
    "Union '" ++ u ++ "': member '" ++ m ++ "' has no constant value for discriminator '" ++ d ++ "'"
  | .tooManyMembers t n c =>
    "Type '" ++ t ++ "': maximum of " ++ toString n ++ " properties is less than its " ++
      toString c ++ " declared and required-key properties"

def RenderError.integers : RenderError → List Int
  | .tooManyMembers _ n _ => [n]
  | _ => []

/-- Mentions made so far, and the result or the error that ended the work. -/
structure Journal (ε α : Type) where
  mentions : List Mention
  result : Except ε α

namespace Journal

variable {ε α β : Type}

def pure (a : α) : Journal ε α := ⟨[], .ok a⟩

def bind (x : Journal ε α) (f : α → Journal ε β) : Journal ε β :=
  match x.result with
  | .ok a =>
    let y := f a
    ⟨x.mentions ++ y.mentions, y.result⟩
  | .error e => ⟨x.mentions, .error e⟩

instance : Monad (Journal ε) where
  pure := Journal.pure
  bind := Journal.bind

def fail (e : ε) : Journal ε α := ⟨[], .error e⟩

def record (a : α) (ms : List Mention) : Journal ε α := ⟨ms, .ok a⟩

def note (ms : List Mention) : Journal ε Unit := ⟨ms, .ok ()⟩

def ofExcept (x : Except ε α) : Journal ε α := ⟨[], x⟩

/-- Works through a list from left to right, up to the first failure. -/
def traverse (f : α → Journal ε β) : List α → Journal ε (List β)
  | [] => Journal.pure []
  | a :: as => (f a).bind fun b => (traverse f as).bind fun bs => Journal.pure (b :: bs)

def notices (x : Journal ε α) : List Notice := x.mentions.filterMap Mention.notice?

def mapError {ε' : Type} (f : ε → ε') (x : Journal ε α) : Journal ε' α :=
  ⟨x.mentions, x.result.mapError f⟩

/-- Gives the work up at the first mention of some kind. -/
def stopAt (stops : Mention → Bool) (e : ε) (x : Journal ε α) : Journal ε α :=
  if x.mentions.any stops then ⟨x.mentions.takeWhile fun m => !stops m, .error e⟩ else x

@[simp] theorem mentions_pure (a : α) : (Journal.pure a : Journal ε α).mentions = [] := rfl

@[simp] theorem mentions_fail (e : ε) : (Journal.fail e : Journal ε α).mentions = [] := rfl

end Journal

end DtoGen
