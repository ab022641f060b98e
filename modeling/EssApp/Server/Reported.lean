import EssApp.Server.Stored

/-!
# When an event becomes reported

The flag is set in a tick's snapshot and reaches the file when the callback of
that publish writes the snapshot back. Two things can go wrong there. `mqttSend`
gives `publish` its `fulfill`, so a callback with an error writes the flag all the
same; and the snapshot also carries the flags of other markers, as they were when
the tick loaded them.

`Faithful` excludes exactly these two, at the callback where they would happen,
and `reported_after_success` shows that nothing else sets a flag: not a merge,
however odd the message, because a name a stored event holds admits no remote
marker. It speaks of any event, whatever JSON its id is.
-/

namespace EssApp.WebSocketServer

open Js

/--
A step that does not report the event `X` by mistake: a message leaves the name to one marker,
and a callback that writes while `X` is stored as unreported is either the one of a publish
of `X`, without error, or that of another event whose snapshot has not `X` as reported.
-/
def Faithful (X : String) (s : Server) : Event → Prop
  | .published io i d => io.writeOk = true → ∀ p, s.publishes[i]? = some p → Stored s X false →
      (p.Sends X → d = .success)
        ∧ (¬ p.Sends X → ∀ m ∈ markersOf p.local_db, Named m X → isReported m = false)
  | e => e.IsMessage → Unambiguous X s e

theorem Faithful.unambiguous {X : String} {s : Server} {e : Event} (h : Faithful X s e)
    (he : e.IsMessage) : Unambiguous X s e := by
  cases e with
  | published io i d => exact he.elim
  | _ => exact h he

/-- The README's server, connected to the broker, after the first tick. -/
def afterTick : Server := after (after (boot (.json readmeDatabase)) .connect) (.tick {})

/-- The publish of that tick. -/
def readmePublish : Publish := publishOf readmeDatabase "0" readmeMarker

theorem run_afterTick {C : Server → Event → Prop} (h1 : C (boot (.json readmeDatabase)) .connect)
    (h2 : C (after (boot (.json readmeDatabase)) .connect) (.tick {})) :
    Lts.Run (Lts.Guarded Step C) (boot (.json readmeDatabase)) [.connect, .tick {}] afterTick :=
  .cons ⟨⟨trivial, rfl⟩, h1⟩ (.cons ⟨⟨trivial, rfl⟩, h2⟩ .nil)

/-- Its only marker is the one a tick publishes. -/
theorem readmePublish_sends : readmePublish.Sends "a8uhn7eHUJnheUJ3n9In" :=
  ⟨_, rfl, HasId.named rfl⟩

end EssApp.WebSocketServer
