import AsioPy.ReadUntil
import AsioPy.ReadModes
import AsioPy.Write
import AsioPy.CancellationType
import AsioPy.RegisterExecutors
import AsioPy.Awaitable
import AsioPy.AwaitProtocol
import AsioPy.WriteOwnership
import AsioPy.Lib.Strided
import AsioPy.WriteBuffer
import AsioPy.WriteOverloads
import AsioPy.AwaitReturn
import AsioPy.ReadFailure
import AsioPy.CompletionToken
import AsioPy.AsTuple
import AsioPy.AwaitableCaster
import AsioPy.CallbackArity
import AsioPy.ValueType
import AsioPy.Lib.FirstOccurrences
import AsioPy.Lib.Munch
import AsioPy.Modifiers
import AsioPy.RegisterAwaitable
import AsioPy.Strands
import AsioPy.TemplatePicker
import AsioPy.ThisCoro
import AsioPy.TypeLists
import AsioPy.Lib.Segments
import AsioPy.LivePipe
import AsioPy.PipeDelivery
import AsioPy.PipeProgress
import AsioPy.AsyncOp
import AsioPy.CoSpawnCall
import AsioPy.SubmitCall
import AsioPy.TimerCall
import AsioPy.ExecutorCall
import AsioPy.ExecutorRuns
import AsioPy.ReadOverloads
import AsioPy.Lib.Inline
import AsioPy.SpawnedAwait
