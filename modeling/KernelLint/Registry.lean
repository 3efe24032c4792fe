import KernelLint.Program.Basic

/-!
# Problem methods

The registry holds the declaration texts of the kernels that were flagged, for one revision of the
program. Whoever subscribes is told, with the file, when a text is added for the first time, and may
react by changing the registry in turn.
-/

namespace KernelLint

/-- The file that owns a flagged method. -/
structure Owner where
  file : FileId
  path : Path
  deriving DecidableEq, Inhabited

def Program.ownerOf? (p : Program) (m : Method) : Option Owner :=
  (p.file? m.file).map fun f => ⟨f.id, f.path⟩

/-- A subscriber with everything it was told, oldest first. -/
structure Mailbox where
  active : Bool := true
  received : List Owner := []
  deriving DecidableEq, Inhabited

/-- The flagged declarations and who subscribed to them. -/
structure RegistryState where
  /-- Declaration texts, none twice. -/
  texts : List String := []
  /-- Every subscriber there ever was, by number. -/
  mailboxes : Array Mailbox := #[]
  /-- The revision the texts belong to. -/
  revision : Nat := 0
  deriving DecidableEq, Inhabited

/-- Put an owner into a mailbox. -/
def RegistryState.hear (state : RegistryState) (owner : Owner) (number : Nat) : RegistryState :=
  { state with
    mailboxes := state.mailboxes.modify number fun b =>
      { b with received := b.received ++ [owner] } }

/-- A registry. Subscribers may call back into it when they are told: they may add texts, forget
them, subscribe others and end subscriptions. -/
structure Registry extends RegistryState where
  /-- What there is after the subscriber of a number was told about an owner and all that it did has
  come to an end, which is nothing for a subscriber that only listens. -/
  react : Nat → Owner → RegistryState → RegistryState := fun _ _ state => state

namespace Registry

def contains (r : Registry) (text : String) : Bool := r.texts.contains text

/-- The subscriptions that have not ended, by number. -/
def active (r : Registry) : List Nat :=
  (List.range r.mailboxes.size).filter fun number => (r.mailboxes[number]?).any (·.active)

/-- Tell one subscriber and let it react. -/
def tell (r : Registry) (owner : Owner) (number : Nat) : Registry :=
  { r with toRegistryState := r.react number owner (r.toRegistryState.hear owner number) }

/-- Tell, one after another, the subscribers that are active now; a reaction changes nothing about
who is told. -/
def announce (r : Registry) (owner : Owner) : Registry :=
  r.active.foldl (tell · owner ·) r

/-- Flag a declaration; only a new one is announced. Was it new? -/
def add (r : Registry) (owner : Owner) (text : String) : Bool × Registry :=
  if r.contains text then (false, r)
  else (true, { r with texts := r.texts ++ [text] }.announce owner)

def sorted (r : Registry) : List String :=
  r.texts.mergeSort fun a b => a ≤ b

/-- Forget every flag. -/
def clear (r : Registry) : Registry := { r with texts := [] }

/-- Move to a revision, forgetting every flag when it is another one. Was it? -/
def sync (r : Registry) (revision : Nat) : Bool × Registry :=
  if r.revision = revision then (false, r)
  else (true, { r with revision }.clear)

/-- A new subscriber, by number. -/
def subscribe (r : Registry) : Nat × Registry :=
  (r.mailboxes.size, { r with mailboxes := r.mailboxes.push {} })

/-- End a subscription. Was there one? -/
def unsubscribe (r : Registry) (number : Nat) : Bool × Registry :=
  ((r.mailboxes[number]?).any (·.active),
    { r with mailboxes := r.mailboxes.modify number fun b => { b with active := false } })

end Registry

end KernelLint
