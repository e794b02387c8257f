import AgentComms.Registry.Participants
import AgentComms.Registry.Rows
import AgentComms.Coordination.Publication
import AgentComms.Claims.Rebuilds
import AgentComms.Claims.Conflicts
import AgentComms.Reads.CursorLaws
import AgentComms.Reads.Answering
import AgentComms.Reads.Pages
import AgentComms.Reads.Unread
import AgentComms.Registry.Leases
import AgentComms.Maintenance.Drained
import AgentComms.Goals.OneLaunch
import AgentComms.Goals.Pauses
import AgentComms.Waits.Replies
import AgentComms.Todos.Updates
import AgentComms.Todos.Requests
import AgentComms.Todos.Delivered
import AgentComms.Deliveries.Handoff
import AgentComms.Deliveries.Recovery
import AgentComms.Coordination.Settlement
import AgentComms.Coordination.Commuting
import AgentComms.Coordination.NativePhases
import AgentComms.Native.Jsonl
import AgentComms.Native.Transcript
import AgentComms.Nominal.Columns
import AgentComms.Sends.Originals
import AgentComms.Rules.Deals
