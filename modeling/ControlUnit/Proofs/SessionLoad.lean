import ControlUnit.Proofs.ImageRoundTrip
import ControlUnit.Session

/-!
# Loading into a session

A host knows a session by the replies to its requests (`Session.replies`).  To load a text is one
request.  If the text spells a program the session becomes one for that program, which answers as
a session that has been made for it; if it does not, the session answers as if nothing had been
asked.  There is no third case: what is assembled and what is read has been checked, so a machine
can be made for it.

This holds of every session, and so of one with whatever requests behind it and in the middle of a
cycle.  It holds for any JSON format that snapshots are shown in.

## Main results

* `Machine.exists_ofProgram` — for a checked program there is a machine.
* `Session.loadsOrKeeps_of_check` — how a text is loaded, whatever it is read by.
* `Session.loads_or_keeps` — the same for source texts and for image texts.
-/

namespace ControlUnit

/-- A machine can be made for every program that passes the check. -/
theorem Machine.exists_ofProgram {program : Program} (h : program.check = .ok ()) :
    ∃ machine, ofProgram program = .ok machine := by
  rw [ofProgram, ProgramMemory.ofProgram, h]
  exact ⟨_, rfl⟩

namespace Session

/-! ## Requests and replies -/

/-- What a host can ask of a session. -/
inductive Request where
  | loadSource (source : String)
  | loadImage (text : String)
  | step
  | cycle
  | run (count : UInt32)
  | reset
  | cycles
  | pc
  | phase
  | registers
  | dataAt (address : UInt16)
  | listing
  | json
  | report
  | countWords (source : String)
  | disassemble (word : UInt32)
  deriving DecidableEq, Repr

/-- What a session answers. -/
inductive Reply where
  | nothing
  | loaded (result : Except LoadError Nat)
  | cycled (result : Except Fault String)
  | counted (result : Except AssemblyError Nat)
  | number (value : Nat)
  | bytes (values : List UInt8)
  | text (text : String)
  deriving Repr

/-- The reply to a request, and the session after it. -/
def perform (format : JsonFormat) (session : Session) : Request → Reply × Session
  | .loadSource source => (.loaded (session.loadSource source).1, (session.loadSource source).2)
  | .loadImage text => (.loaded (session.loadImage text).1, (session.loadImage text).2)
  | .step => (.text session.step.1, session.step.2)
  | .cycle => (.cycled session.cycle.1, session.cycle.2)
  | .run count => (.number (session.run count).1, (session.run count).2)
  | .reset => (.nothing, session.reset)
  | .cycles => (.number session.machine.cycles, session)
  | .pc => (.number session.machine.pc.toNat, session)
  | .phase => (.text session.machine.phase.name, session)
  | .registers => (.bytes session.machine.registers.toList, session)
  | .dataAt address => (.bytes [session.dataAt address], session)
  | .listing => (.text session.listing, session)
  | .json => (.text (session.json format), session)
  | .report => (.text session.report, session)
  | .countWords source => (.counted (countWords source), session)
  | .disassemble word => (.text (Listing.wordText word), session)

/-- The replies to several requests in order. -/
def replies (format : JsonFormat) (session : Session) : List Request → List Reply
  | [] => []
  | request :: rest =>
    (session.perform format request).1 :: (session.perform format request).2.replies format rest

/-! ## Loading -/

/-- What a request to load comes to, by what its text has been read as.  With a program, the
session answers from then on as one that is made for the program; with an error, it reports why and
answers as if it had not been asked. -/
def LoadsOrKeeps {ε : Type} (format : JsonFormat) (session : Session) (request : Request)
    (wrap : ε → LoadError) : Except ε Program → Prop
  | .ok program =>
    program.size ≤ programSize ∧
      ∃ machine, Machine.ofProgram program = .ok machine ∧
        ∀ later, session.replies format (request :: later)
          = .loaded (.ok program.size) :: replies format ⟨machine⟩ later
  | .error cause =>
    ∀ later, session.replies format (request :: later)
      = .loaded (.error (wrap cause)) :: session.replies format later

/-- A load is all or nothing if what is read has passed the check. -/
theorem loadsOrKeeps_of_check {ε : Type} {format : JsonFormat} {session : Session}
    {request : Request} {wrap : ε → LoadError} {read : Except ε Program}
    (hRequest : session.perform format request
      = match read with
        | .ok program => (.loaded (session.loadProgram program).1, (session.loadProgram program).2)
        | .error cause => (.loaded (.error (wrap cause)), session))
    (hCheck : ∀ program, read = .ok program → program.check = .ok ()) :
    session.LoadsOrKeeps format request wrap read := by
  cases read with
  | ok program =>
      have hChecked := hCheck program rfl
      obtain ⟨machine, hMachine⟩ := Machine.exists_ofProgram hChecked
      refine ⟨(Program.check_eq_ok_iff.1 hChecked).1, machine, hMachine, fun later => ?_⟩
      rw [replies, hRequest]
      simp only [loadProgram, hMachine]
  | error cause =>
      intro later
      rw [replies, hRequest]

/-- **Loading is all or nothing.**  A session loads a source text exactly if it assembles, and an
image text exactly if it can be read, whatever has been done with the session before. -/
theorem loads_or_keeps (format : JsonFormat) (session : Session) (text : String) :
    session.LoadsOrKeeps format (.loadSource text) .assembly (assemble text) ∧
      session.LoadsOrKeeps format (.loadImage text) .image (Image.read text) := by
  constructor
  · apply loadsOrKeeps_of_check
    · rw [perform, loadSource]
      cases assemble text <;> rfl
    · exact fun program hRead => (Image.storable_of_assemble hRead).check
  · apply loadsOrKeeps_of_check
    · rw [perform, loadImage]
      cases Image.read text <;> rfl
    · exact fun program hRead => (Image.storable_of_read hRead).check

end Session

end ControlUnit
