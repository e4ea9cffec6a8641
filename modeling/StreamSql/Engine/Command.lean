/-
  Commands to an engine, and their replies.

  A command is a call from outside, or lets the tasks of the engine work: the dispatcher, which
  delivers what is queued, the timer, and the call that stops the engine and waits for the others.

  * `Engine.step e c`: the reply to a command, and the engine after it;
  * `Engine.replies e cs`: the replies to commands given one after the other.
-/
import StreamSql.Engine

namespace StreamSql

/-- A command to an engine. -/
inductive Command where
  /-- a query is started, with or without a runtime for its tasks -/
  | execute (hosted : Bool) (sql : String)
  | executeQuery (hosted : Bool) (query : Query)
  | emit (record : Record)
  | emitText (text : String)
  | trigger
  | poll
  | setClock (millis : Int64)
  | advanceClock (millis : Int64)
  | addSink (sink : Sink)
  /-- the dispatcher takes a step -/
  | dispatch
  | drain
  /-- the time of the timer passes -/
  | pass (millis : Nat)
  /-- the timer polls if it is due -/
  | ring
  | tick (millis : Nat)
  | beginStop
  /-- the next batch that waits for room is put into the queue, if there is room -/
  | flush
  /-- the tasks of the query are told to end -/
  | signal
  | endTimer
  | endStop
  | stop

/-- A reply of an engine. -/
inductive Reply where
  | done
  | failed (error : QueryError)
  /-- the number of batches that fired -/
  | fired (count : Nat)
  /-- the number of the new sink among the recorded ones -/
  | added (sink : Nat)
  | delivered (deliveries : List Delivery)

namespace Reply

/-- What was delivered. -/
def deliveries : Reply → List Delivery
  | delivered ds => ds
  | _ => []

end Reply

namespace Engine

/-- The reply to an action, and the engine after it. -/
def reply {α : Type} (e : Engine) (action : Action α) (ok : α → Reply) : Reply × Engine :=
  match action.run.run e with
  | (.ok a, e) => (ok a, e)
  | (.error error, e) => (.failed error, e)

/-- The reply to a command, and the engine after it. -/
def step (e : Engine) : Command → Reply × Engine
  | .execute hosted sql => e.reply (execute hosted sql) fun _ => .done
  | .executeQuery hosted query => e.reply (executeQuery hosted query) fun _ => .done
  | .emit record => e.reply (emit record) fun _ => .done
  | .emitText text => e.reply (emitText text) fun _ => .done
  | .trigger => e.reply trigger .fired
  | .poll => e.reply poll .fired
  | .setClock millis => (.done, { e with clock := millis })
  | .advanceClock millis => (.done, { e with clock := e.clock + millis })
  | .addSink sink =>
    (if sink.recorded then .added (Sink.recorders e.sinks) else .done,
      { e with sinks := e.sinks ++ [sink] })
  | .dispatch => let (deliveries, e) := e.dispatch; (.delivered deliveries, e)
  | .drain => let (deliveries, e) := e.drain; (.delivered deliveries, e)
  | .pass millis => (.done, e.pass millis)
  | .ring => (.done, e.ring)
  | .tick millis => let (deliveries, e) := e.tick millis; (.delivered deliveries, e)
  | .beginStop => (.done, e.beginStop)
  | .flush => (.done, e.flush)
  | .signal => (.done, e.signal)
  | .endTimer => (.done, e.endTimer)
  | .endStop => (.done, e.endStop)
  | .stop => let (deliveries, e) := e.stop; (.delivered deliveries, e)

/-- The engine after commands given one after the other. -/
def after (e : Engine) : List Command → Engine
  | [] => e
  | c :: rest => (e.step c).2.after rest

/-- The replies to commands given one after the other. -/
def replies (e : Engine) : List Command → List Reply
  | [] => []
  | c :: rest =>
    let (reply, e) := e.step c
    reply :: e.replies rest

end Engine

end StreamSql
