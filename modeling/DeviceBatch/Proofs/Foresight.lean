import DeviceBatch.Proofs.Sites

/-!
# What can be foreseen of a command

`BufferCommand.foresee` says what a command on buffers answers, what it leaves under which names and
what happens to storage, all from the names and the outlook: without regard to when copies are
performed. It is the meaning of the commands on a machine on which nothing ever waits.
-/

namespace DeviceBatch

open Session

/-- What is foreseen: the answer, the names afterwards and the effects. -/
structure Foreseen where
  reply : Except Error Reply
  session : Session
  effects : List Effect

namespace Foreseen

/-- The command fails and changes nothing. -/
def fail (s : Session) (e : Error) : Foreseen := ⟨.error e, s, []⟩

/-- The command answers and changes nothing. -/
def answer (s : Session) (reply : Reply) (effects : List Effect) : Foreseen :=
  ⟨.ok reply, s, effects⟩

/-- A new buffer in a slot. -/
def buffer (s : Session) (slot : String) (b : Buffer) (effects : List Effect) : Foreseen :=
  ⟨.ok (.buffer b), { s with slots := s.slots.put slot (.buffer b) }, effects⟩

/-- A new tensor in a slot. -/
def tensor (s : Session) (slot : String) (t : Tensor) (effects : List Effect) : Foreseen :=
  ⟨.ok (.tensor t), { s with slots := s.slots.put slot (.tensor t) }, effects⟩

/-- The same on another machine. -/
def withMachine (f : Foreseen) (m : Machine) : Foreseen :=
  { f with session := { f.session with machine := m } }

end Foreseen

/-- What an action finds before it does anything, or else its failure. -/
def foreseeWith {α : Type} (s : Session) (found : Except Error α) (go : α → Foreseen) : Foreseen :=
  match found with
  | .ok a => go a
  | .error e => .fail s e

section

variable {α : Type} {s : Session} {m : Machine}

theorem foreseeWith_of_ok {found : Except Error α} {a : α} (h : found = .ok a)
    (go : α → Foreseen) : foreseeWith s found go = go a := by
  rw [h]
  rfl

theorem foreseeWith_of_error {found : Except Error α} {e : Error} (h : found = .error e)
    (go : α → Foreseen) : foreseeWith s found go = .fail s e := by
  rw [h]
  rfl

theorem foreseeWith_withMachine {α : Type} {found found' : Except Error α} {go go' : α → Foreseen}
    (hf : found' = found) (h : ∀ a, go' a = (go a).withMachine m) :
    foreseeWith { s with machine := m } found' go' = (foreseeWith s found go).withMachine m := by
  subst hf
  cases found' with
  | ok a => exact h a
  | error e => rfl

theorem Buffer.ensureHost_of_host {b : Buffer} (h : b.location = .host) :
    b.ensureHost = .ok () := by
  unfold Buffer.ensureHost
  rw [h]

theorem Buffer.ensureHost_of_device {b : Buffer} (h : b.location = .device) :
    b.ensureHost = .error (.notHostAccessible .device) := by
  unfold Buffer.ensureHost
  rw [h]

end

namespace BufferCommand

/-- The session without what is in a slot. -/
def emptied (s : Session) (slot : String) : Session := { s with slots := s.slots.remove slot }

/-- A buffer copied from one place to another: brought onto the stream of the source first. -/
def foreseeCopy (s : Session) (dst : Place) (target source : Buffer) (dstOffset : Nat)
    (range : Nat × Nat) : Foreseen :=
  if Buffer.inRange target source dstOffset range.1 range.2 then
    ⟨.ok (.stream source.stream), bindAt dst source.stream s,
      (if target.stream = source.stream then [] else [.wait]) ++
        Effect.copies (Buffer.rangeCopy target source dstOffset range.1 range.2)⟩
  else
    ⟨.error (.range dstOffset range.1 range.2 source.size target.size),
      bindAt dst target.stream s, []⟩

/-- What comes of a command if storage is given out whenever it is asked for. -/
def foresee (o : Outlook) (platform : String) (s : Session) : BufferCommand → Foreseen
  | allocate slot dtype size location device stream =>
    let b := Buffer.fresh o.memory.next dtype size location device stream
    .buffer s slot b (Effect.allocs b.byteSize)
  | ofList slot dtype xs location device stream =>
    .buffer s slot (Buffer.ofBytesResult o.memory.next dtype xs.length location device stream)
      (Buffer.ofBytesEffects o.memory.next dtype xs.length (dtype.encode (xs.map dtype.ofInt))
        location device stream)
  | copyTo slot src location device => foreseeWith s (s.resourceAt src) fun r =>
    .buffer s slot (r.data.copied o.memory.next location device)
      (r.data.copyEffects o.memory.next location device)
  | clone slot src => foreseeWith s (s.resourceAt src) fun r =>
    .buffer s slot (r.data.copied o.memory.next r.data.location r.data.device)
      (r.data.copyEffects o.memory.next r.data.location r.data.device)
  | moveTo slot src location => foreseeWith s (s.held src) fun r =>
    if r.data.location = location then .buffer (emptied s src) slot r.data []
    else
      .buffer (emptied s src) slot (r.data.copied o.memory.next location r.data.device)
        (r.data.copyEffects o.memory.next location r.data.device ++ Effect.frees r.holdings)
  | borrow slot src offset size location device stream => foreseeWith s (s.resourceAt src) fun r =>
    .buffer s slot (.borrow r.data.dtype (location.getD r.data.location)
      (r.data.position offset) size device stream) []
  | release slot => foreseeWith s (s.held slot) fun r =>
    .answer (emptied s slot) .done (Effect.frees r.holdings)
  | describe place => foreseeWith s (s.resourceAt place) fun r => .answer s (.ofResource r) []
  | text place => foreseeWith s (s.resourceAt place) fun r =>
    .answer s (.text (r.text platform)) []
  | sameData a b => foreseeWith s (s.resourceAt a) fun r =>
    foreseeWith s (s.resourceAt b) fun r' => .answer s (.flag (r.data.data == r'.data.data)) []
  | peek place => foreseeWith s (s.resourceAt place) fun r =>
    foreseeWith s r.data.ensureHost fun _ =>
      .answer s (.elements r.data.dtype (r.data.dtype.decode (r.data.outlookBytes o))) []
  | toList place => foreseeWith s (s.resourceAt place) fun r =>
    .answer s (.elements r.data.dtype (r.data.dtype.decode (r.data.outlookBytes o)))
      (r.data.fetchEffects o.memory.next)
  | poke place index xs => foreseeWith s (s.resourceAt place) fun r =>
    foreseeWith s r.data.ensureHost fun _ =>
      .answer s .done (r.data.pokeEffects index (xs.map r.data.dtype.ofInt))
  | rebind place stream => foreseeWith s (s.resourceAt place) fun _ =>
    .answer (bindAt place stream s) (.stream stream) [.wait]
  | copy dst src dstOffset range => foreseeWith s (s.resourceAt dst) fun r =>
    foreseeWith s (s.resourceAt src) fun r' =>
      foreseeCopy s dst r.data r'.data dstOffset (range.getD (0, r'.data.size))
  | allocateTensor slot dtype shape location device stream =>
    match h : shape.product? with
    | none => .fail s (.shapeMismatch (.countOverflow shape))
    | some count =>
      .tensor s slot ⟨shape, Buffer.fresh o.memory.next dtype count location device stream, h⟩
        (Effect.allocs (count * dtype.width))
  | toTensor slot src shape => foreseeWith s (s.held src) fun r =>
    match Tensor.ofBuffer shape r.data with
    | .ok t => .tensor (emptied s src) slot t []
    | .error e => ⟨.error e, emptied s src, Effect.frees r.holdings⟩
  | toBuffer slot src => foreseeWith s (s.held src) fun r =>
    .buffer (emptied s src) slot r.data []

/-- What is foreseen has nothing to do with the machine, but for its outlook. -/
theorem foresee_withMachine (o : Outlook) (platform : String) (s : Session) (m : Machine)
    (c : BufferCommand) :
    c.foresee o platform { s with machine := m } = (c.foresee o platform s).withMachine m := by
  have hat : ∀ place, ({ s with machine := m } : Session).resourceAt place = s.resourceAt place :=
    resourceAt_withMachine s m
  cases c with
  | allocate | ofList => rfl
  | copyTo | clone | borrow | describe | text | toList =>
    exact foreseeWith_withMachine (hat _) fun r => rfl
  | moveTo slot src location =>
    refine foreseeWith_withMachine rfl fun r => ?_
    split <;> rfl
  | release | toBuffer => exact foreseeWith_withMachine rfl fun r => rfl
  | sameData => exact foreseeWith_withMachine (hat _) fun r =>
      foreseeWith_withMachine (hat _) fun r' => rfl
  | peek | poke => exact foreseeWith_withMachine (hat _) fun r =>
      foreseeWith_withMachine rfl fun _ => rfl
  | rebind place stream =>
    refine foreseeWith_withMachine (hat _) fun r => ?_
    rw [bindAt_withMachine]
    rfl
  | copy dst src dstOffset range =>
    refine foreseeWith_withMachine (hat _) fun r => foreseeWith_withMachine (hat _) fun r' => ?_
    unfold BufferCommand.foreseeCopy
    split <;> (rw [bindAt_withMachine]; rfl)
  | allocateTensor slot dtype shape location device stream =>
    unfold BufferCommand.foresee
    dsimp only
    split <;> rfl
  | toTensor slot src shape =>
    refine foreseeWith_withMachine rfl fun r => ?_
    split <;> rfl

end BufferCommand

/-! ## Running commands -/

namespace Session

variable {s s' : Session} {slot name : String} {place : Place} {r : Resource} {e : Error}
  {b : Buffer} {t : Tensor} {m : Machine} {α : Type}

theorem onMachine_of_ok {act : Action Machine α} {a : α} (h : act s.machine = .ok a m) :
    onMachine act s = .ok a { s with machine := m } := Action.within_of_ok h

theorem onMachine_of_error {act : Action Machine α} (h : act s.machine = .error e m) :
    onMachine act s = .error e { s with machine := m } := Action.within_of_error h

theorem consult_of_ok {f : Session → Except Error α} {a : α} (h : f s = .ok a) :
    consult f s = .ok a s := by
  unfold consult
  rw [h]

theorem consult_of_error {f : Session → Except Error α} (h : f s = .error e) :
    consult f s = .error e s := by
  unfold consult
  rw [h]

theorem bufferAt_of_ok (h : s.resourceAt place = .ok r) : bufferAt place s = .ok r.data s :=
  Action.bind_of_ok (consult_of_ok h)

theorem bufferAt_of_error (h : s.resourceAt place = .error e) : bufferAt place s = .error e s :=
  Action.bind_of_error (consult_of_error h)

theorem bufferAt_bind (place : Place) (g : Buffer → Action Session α) :
    bufferAt place >>= g = consult (resourceAt place) >>= fun r => g r.data := by
  unfold bufferAt
  rw [bind_assoc]
  rfl

theorem take_of_ok (h : s.held name = .ok r) :
    take name s = .ok r { s with slots := s.slots.remove name } :=
  Action.bind_of_ok (consult_of_ok h)

theorem take_of_error (h : s.held name = .error e) : take name s = .error e s :=
  Action.bind_of_error (consult_of_error h)

end Session

end DeviceBatch
